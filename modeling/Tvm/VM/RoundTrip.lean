import Tvm.VM.Executable
import Mathlib.Data.List.Nodup

namespace Tvm.VM

theorem readsBack_dlDataType (t : DLDataType) : ReadsBack readDLDataType writeDLDataType t :=
  fun _ rest => by simp [readDLDataType, writeDLDataType]

theorem loadNDArray_saveDLTensor (t : NDArray) (h : (saveDLTensor t).length < 2 ^ 64)
    (rest : Bytes) : loadNDArray.run (saveDLTensor t ++ rest) = .ok (t, rest) := by
  obtain ⟨shape, dtype, data, hdata⟩ := t
  simp only [saveDLTensor, List.length_append] at h
  have hshape : ReadsBack (readVector readU64) (writeVector writeU64) shape :=
    readsBack_vector (fun v _ => readsBack_u64 v) writeU64_ne_nil
  have hd := readsBack_string data (by omega) rest
  simp only [loadNDArray, saveDLTensor, kDLCPU, beq_iff_eq, pure_bind, List.append_assoc,
    StateT.run_bind, readU32_writeU32, except_ok_bind, if_true,
    readsBack_dlDataType dtype (by simp [writeDLDataType, writeU8, writeU16]),
    hshape (by omega) (writeString data ++ rest), hd, hdata, dif_pos, StateT.run_pure, except_pure]

theorem readsBack_funcInfo (f : VMFuncInfo) : ReadsBack VMFuncInfo.load VMFuncInfo.save f := by
  intro h rest
  simp only [VMFuncInfo.save, List.length_append] at h
  have hname := readsBack_string f.name (by omega)
  have hparams : ReadsBack (readVector readString) (writeVector writeString) f.paramNames :=
    readsBack_vector (fun s _ => readsBack_string s) writeString_ne_nil
  simp only [VMFuncInfo.load, VMFuncInfo.save, Bool.not_eq_eq_eq_not, Bool.not_true, bind_pure_comp,
    map_pure, pure_bind, List.append_assoc, StateT.run_bind, readU32_writeU32, except_ok_bind,
    Bool.true_eq_false, hname, readU64_writeU64, hparams (by omega) rest, StateT.run_pure,
    except_pure, if_false]

theorem save_funcInfo_ne_nil (f : VMFuncInfo) : VMFuncInfo.save f ≠ [] := by
  simp [VMFuncInfo.save, writeU32, encodeLE]

theorem readEach_flatMap {α : Type} {read : Load (Bool × α)} {write : α → Bytes} (xs : List α)
    (hread : ∀ x rest, read.run (write x ++ rest) = .ok ((true, x), rest)) (rest : Bytes) :
    (readEach read xs.length).run (xs.flatMap write ++ rest) = .ok (xs, rest) := by
  induction xs with
  | nil => rfl
  | cons x xs ih => simp [readEach, hread, ih]

theorem readLE_writeU32 (v : UInt32) (rest : Bytes) :
    (readLE 4).run (writeU32 v ++ rest) = .ok ((4, v.toNat), rest) :=
  readLE_encodeLE_of_lt (show v.toNat < 256 ^ 4 from v.toBitVec.isLt) rest

theorem loadConstant_saveConstant (tags : TypeIndex) (c : Constant)
    (h : (saveConstant tags c).length < 2 ^ 64) (rest : Bytes) :
    (loadConstant tags).run (saveConstant tags c ++ rest) = .ok (c, rest) := by
  have hd := tags.nodup
  simp only [List.nodup_cons, List.mem_cons, List.mem_singleton, not_or, List.not_mem_nil,
    not_false_eq_true, List.nodup_nil, and_true] at hd
  obtain ⟨⟨h01, h02, h03, h04, h05⟩, ⟨h12, h13, h14, h15⟩, ⟨h23, h24, h25⟩, ⟨h34, h35⟩, h45⟩ := hd
  have hu8 : ∀ v rest, readU8.run (writeU8 v ++ rest) = .ok ((true, v), rest) := readU8_writeU8
  have hu64 : ∀ v rest, readU64.run (writeU64 v ++ rest) = .ok ((true, v), rest) :=
    readU64_writeU64
  cases c with
  | ndarray t =>
    simp only [saveConstant, List.length_append] at h
    simp only [loadConstant, beq_iff_eq, bind_pure_comp, saveConstant, List.append_assoc,
      StateT.run_bind, readLE_writeU32, except_ok_bind, Nat.reduceBNe, streamCheck_true,
      StateT.run_pure, except_pure, uint32_ofNat_toNat, if_true, StateT.run_map,
      loadNDArray_saveDLTensor t (by omega), Except.map_ok]
  | shape dims =>
    simp only [saveConstant, writeSizeT, List.length_append] at h
    have := length_le_length_flatMap_of_ne_nil writeU64_ne_nil dims
    simp only [loadConstant, beq_iff_eq, bind_pure_comp, saveConstant, writeSizeT,
      List.append_assoc, StateT.run_bind, readLE_writeU32, except_ok_bind, Nat.reduceBNe,
      streamCheck_true, StateT.run_pure, except_pure, uint32_ofNat_toNat, Ne.symm h01, if_false,
      if_true, StateT.run_map, readU64_writeU64,
      toNat_uint64_ofNat (show dims.length < 2 ^ 64 by omega), readEach_flatMap dims hu64,
      Except.map_ok]
  | str s =>
    simp only [saveConstant, writeSizeT, List.length_append] at h
    have : s.length ≤ (s.flatMap writeU8).length :=
      length_le_length_flatMap_of_ne_nil (by simp [writeU8, encodeLE]) s
    simp only [loadConstant, beq_iff_eq, bind_pure_comp, saveConstant, writeSizeT,
      List.append_assoc, StateT.run_bind, readLE_writeU32, except_ok_bind, Nat.reduceBNe,
      streamCheck_true, StateT.run_pure, except_pure, uint32_ofNat_toNat, Ne.symm h02, Ne.symm h12,
      h25, if_false, if_true, StateT.run_map, readU64_writeU64,
      toNat_uint64_ofNat (show s.length < 2 ^ 64 by omega), readEach_flatMap s hu8, Except.map_ok]
  | int v =>
    simp only [loadConstant, beq_iff_eq, bind_pure_comp, saveConstant, List.append_assoc,
      StateT.run_bind, readLE_writeU32, except_ok_bind, Nat.reduceBNe, streamCheck_true,
      StateT.run_pure, except_pure, uint32_ofNat_toNat, Ne.symm h03, Ne.symm h13, h35, Ne.symm h23,
      if_false, if_true, StateT.run_map, readU64_writeU64, Except.map_ok]
  | float v =>
    simp only [loadConstant, beq_iff_eq, bind_pure_comp, saveConstant, List.append_assoc,
      StateT.run_bind, readLE_writeU32, except_ok_bind, Nat.reduceBNe, streamCheck_true,
      StateT.run_pure, except_pure, uint32_ofNat_toNat, Ne.symm h04, Ne.symm h14, h45, Ne.symm h24,
      Ne.symm h34, if_false, if_true, StateT.run_map, readU64_writeU64, Except.map_ok]
  | dataType t =>
    simp only [loadConstant, beq_iff_eq, bind_pure_comp, saveConstant, List.append_assoc,
      StateT.run_bind, readLE_writeU32, except_ok_bind, Nat.reduceBNe, streamCheck_true,
      StateT.run_pure, except_pure, uint32_ofNat_toNat, Ne.symm h05, Ne.symm h15, if_false, if_true,
      StateT.run_map, readsBack_dlDataType t (by simp [writeDLDataType, writeU8, writeU16]),
      Except.map_ok]

theorem saveConstant_ne_nil (tags : TypeIndex) (c : Constant) : saveConstant tags c ≠ [] := by
  cases c <;> simp [saveConstant, writeU32, encodeLE]

theorem loadConstants_flatMap (tags : TypeIndex) (cs : List Constant)
    (h : ∀ c ∈ cs, (saveConstant tags c).length < 2 ^ 64) (rest : Bytes) :
    (loadConstants tags cs.length).run (cs.flatMap (saveConstant tags) ++ rest) = .ok (cs, rest) := by
  induction cs with
  | nil => rfl
  | cons c cs ih =>
    simp [loadConstants, loadConstant_saveConstant tags c (h c (.head _)),
      ih fun c' hc' => h c' (.tail _ hc')]

theorem lookup_of_mem {l : List (Bytes × UInt64)} (hl : (l.map Prod.fst).Nodup) {k : Bytes}
    {v : UInt64} (h : (k, v) ∈ l) : l.lookup k = some v := by
  induction l with
  | nil => cases h
  | cons p l ih =>
    obtain ⟨k', v'⟩ := p
    simp only [List.map_cons, List.nodup_cons, List.mem_map] at hl
    rcases List.mem_cons.1 h with h | h
    · cases h; simp [List.lookup_cons]
    · have hk : k ≠ k' := fun hk => hl.1 ⟨(k, v), h, hk⟩
      simp [List.lookup_cons, beq_eq_false_iff_ne.2 hk, ih hl.2 h]

theorem lookup_buildFuncMap {table : List VMFuncInfo} (hnames : (table.map (·.name)).Nodup)
    {i : Nat} (hi : i < table.length) :
    (buildFuncMap table).lookup table[i].name = some (UInt64.ofNat i) := by
  apply lookup_of_mem
  · have hkeys : (buildFuncMap table).map Prod.fst = (table.map (·.name)).reverse := by
      rw [buildFuncMap, List.map_reverse, List.map_map, ← List.enum_map_snd table, List.map_map,
        List.enum_map_snd]
      rfl
    rw [hkeys]
    exact List.nodup_reverse.2 hnames
  · rw [buildFuncMap, List.mem_reverse, List.mem_map]
    exact ⟨(i, table[i]), List.mem_enum_iff_getElem?.2 (by simp [hi]), rfl⟩

section Codec

variable (tags : TypeIndex) (version : Bytes)

theorem loadHeader_saveHeader (h : (saveHeader version).length < 2 ^ 64) (rest : Bytes) :
    (loadHeader version).run (saveHeader version ++ rest) = .ok ((), rest) := by
  simp only [saveHeader, List.length_append] at h
  simp [loadHeader_eq, saveHeader, readsBack_string version (by omega) rest]

theorem loadGlobalSection_saveGlobalSection (e : VMExecutable)
    (h : (saveGlobalSection e).length < 2 ^ 64) (rest : Bytes) :
    loadGlobalSection.run (saveGlobalSection e ++ rest) = .ok (e.funcTable, rest) := by
  simp [loadGlobalSection, saveGlobalSection,
    readsBack_vector (fun f _ => readsBack_funcInfo f) save_funcInfo_ne_nil h rest]

theorem loadConstantSection_saveConstantSection (e : VMExecutable)
    (h : (saveConstantSection tags e).length < 2 ^ 64) (rest : Bytes) :
    (loadConstantSection tags).run (saveConstantSection tags e ++ rest) =
      .ok (e.constants, rest) := by
  simp only [saveConstantSection, List.length_append] at h
  have hlen := length_le_length_flatMap_of_ne_nil (saveConstant_ne_nil tags) e.constants
  have hcs : ∀ c ∈ e.constants, (saveConstant tags c).length < 2 ^ 64 :=
    fun c hc => by
      have : (saveConstant tags c).length ≤ (e.constants.flatMap (saveConstant tags)).length :=
        length_le_length_flatMap hc
      omega
  have hc : e.constants.length < 2 ^ 64 := by omega
  simp [loadConstantSection, saveConstantSection, writeU64, toNat_uint64_ofNat hc,
    readLE_encodeLE_of_lt (show e.constants.length < 256 ^ 8 from hc),
    loadConstants_flatMap tags e.constants hcs]

theorem loadCodeSection_saveCodeSection (e : VMExecutable)
    (h : (saveCodeSection e).length < 2 ^ 64) (rest : Bytes) :
    loadCodeSection.run (saveCodeSection e ++ rest) = .ok ((e.instrOffset, e.instrData), rest) := by
  simp only [saveCodeSection, List.length_append] at h
  have hw : ∀ xs : List UInt64, (writeVector writeU64 xs).length < 2 ^ 64 → ∀ rest,
      (readVector readU64).run (writeVector writeU64 xs ++ rest) = .ok ((true, xs), rest) :=
    fun xs => readsBack_vector (fun v _ => readsBack_u64 v) writeU64_ne_nil
  simp [loadCodeSection, saveCodeSection, hw e.instrOffset (by omega),
    hw e.instrData (by omega)]

theorem loadSections_saveSections (e : VMExecutable)
    (h : (saveSections tags version e).length < 2 ^ 64) (rest : Bytes) :
    (loadSections tags version).run (saveSections tags version e ++ rest) =
      .ok (⟨e.constants, e.funcTable, buildFuncMap e.funcTable, e.instrOffset, e.instrData⟩,
        rest) := by
  simp only [saveSections, List.length_append] at h
  simp [loadSections, saveSections, loadHeader_saveHeader version (by omega),
    loadGlobalSection_saveGlobalSection e (by omega),
    loadConstantSection_saveConstantSection tags e (by omega),
    loadCodeSection_saveCodeSection e (by omega)]

theorem loadFromBinary_saveToBinary_append (e : VMExecutable)
    (h : (saveSections tags version e).length < 2 ^ 64) (rest : Bytes) :
    (loadFromBinary tags version).run (saveToBinary tags version e ++ rest) =
      .ok (⟨e.constants, e.funcTable, buildFuncMap e.funcTable, e.instrOffset, e.instrData⟩,
        rest) := by
  have hsec := loadSections_saveSections tags version e h []
  rw [List.append_nil] at hsec
  rw [loadFromBinary_eq, saveToBinary, StateT.run_bind, readString_writeString h, except_ok_bind]
  show (StateT.lift ((loadSections tags version).run' (saveSections tags version e))).run rest = _
  rw [StateT.run_lift, StateT.run'_eq, hsec]
  rfl

end Codec

/-- Save then load gives back the executable, each function's name mapped to its index. -/
theorem loadFromBinary_saveToBinary (tags : TypeIndex) (version : Bytes) (e : VMExecutable)
    (hnames : (e.funcTable.map (·.name)).Nodup)
    (hfit : (saveSections tags version e).length < 2 ^ 64) :
    ∃ e', (loadFromBinary tags version).run (saveToBinary tags version e) = .ok (e', []) ∧
      e'.constants = e.constants ∧ e'.funcTable = e.funcTable ∧
      (∀ i (hi : i < e.funcTable.length),
        e'.funcMap.lookup e.funcTable[i].name = some (UInt64.ofNat i)) ∧
      e'.instrOffset = e.instrOffset ∧ e'.instrData = e.instrData := by
  have h := loadFromBinary_saveToBinary_append tags version e hfit []
  rw [List.append_nil] at h
  exact ⟨_, h, rfl, rfl, fun i hi => lookup_buildFuncMap hnames hi, rfl, rfl⟩

theorem loadFromBinary_saveToBinary_main :
    ([(⟨1, [109, 97, 105, 110], 0, 1, 1, 2, [[120]]⟩ : VMFuncInfo)].map (·.name)).Nodup ∧
    (saveSections ⟨70, 69, 65, 1, 3, 5, by decide⟩ [48, 46, 49]
      ⟨[.int 7, .shape [2, 3]], [⟨1, [109, 97, 105, 110], 0, 1, 1, 2, [[120]]⟩], [], [0],
        [1, 0]⟩).length < 2 ^ 64 ∧
    ∃ e', (loadFromBinary ⟨70, 69, 65, 1, 3, 5, by decide⟩ [48, 46, 49]).run
        (saveToBinary ⟨70, 69, 65, 1, 3, 5, by decide⟩ [48, 46, 49]
          ⟨[.int 7, .shape [2, 3]], [⟨1, [109, 97, 105, 110], 0, 1, 1, 2, [[120]]⟩], [], [0],
            [1, 0]⟩) = .ok (e', []) ∧
      e'.constants = [.int 7, .shape [2, 3]] ∧
      e'.funcTable = [⟨1, [109, 97, 105, 110], 0, 1, 1, 2, [[120]]⟩] ∧
      (∀ i (hi : i < 1), e'.funcMap.lookup
        [(⟨1, [109, 97, 105, 110], 0, 1, 1, 2, [[120]]⟩ : VMFuncInfo)][i].name =
          some (UInt64.ofNat i)) ∧
      e'.instrOffset = [0] ∧ e'.instrData = [1, 0] := by
  have hfit : (saveSections ⟨70, 69, 65, 1, 3, 5, by decide⟩ [48, 46, 49]
      ⟨[.int 7, .shape [2, 3]], [⟨1, [109, 97, 105, 110], 0, 1, 1, 2, [[120]]⟩], [], [0],
        [1, 0]⟩).length < 2 ^ 64 := by
    simp [saveSections, saveHeader, saveGlobalSection, saveConstantSection, saveCodeSection,
      saveConstant, VMFuncInfo.save, writeSizeT]
  exact ⟨by decide, hfit, loadFromBinary_saveToBinary _ _ _ (by decide) hfit⟩

/-- Modelled from the spec: a file system maps each file name to the bytes last written to it. -/
abbrev FileSystem := String → Option Bytes

inductive FileError where
  /-- The file cannot be opened. -/
  | cannotOpen (fileName : String)
  /-- An error of `LoadFromBinary`. -/
  | load (e : LoadError)
  deriving DecidableEq, Repr

/-- Modelled from the spec: `SaveBinaryToFile` replaces the file's contents. -/
def saveBinaryToFile (fs : FileSystem) (fileName : String) (data : Bytes) : FileSystem :=
  Function.update fs fileName (some data)

/-- Modelled from the spec: `LoadBinaryFromFile` reads the whole file. -/
def loadBinaryFromFile (fs : FileSystem) (fileName : String) : Except FileError Bytes :=
  match fs fileName with
  | some data => .ok data
  | none => .error (.cannotOpen fileName)

section Files

variable (tags : TypeIndex) (version : Bytes)

/-- `VMExecutable::SaveToFile`: the bytes `SaveToBinary` writes; `format` is not read. -/
def saveToFile (fs : FileSystem) (fileName _format : String) (e : VMExecutable) : FileSystem :=
  saveBinaryToFile fs fileName (saveToBinary tags version e)

/-- `VMExecutable::LoadFromFile`: the file's bytes, read by `LoadFromBinary`. -/
def loadFromFile (fs : FileSystem) (fileName : String) : Except FileError VMExecutable := do
  let data ← loadBinaryFromFile fs fileName
  ((loadFromBinary tags version).run' data).mapError .load

/-- A file `SaveToFile` wrote is loaded back by `LoadFromFile`; other files load as before. -/
theorem loadFromFile_saveToFile (fs : FileSystem) (fileName format : String) (e : VMExecutable)
    (hfit : (saveSections tags version e).length < 2 ^ 64) :
    loadFromFile tags version (saveToFile tags version fs fileName format e) fileName =
      .ok ⟨e.constants, e.funcTable, buildFuncMap e.funcTable, e.instrOffset, e.instrData⟩ ∧
    ∀ other, other ≠ fileName →
      loadFromFile tags version (saveToFile tags version fs fileName format e) other =
        loadFromFile tags version fs other := by
  have h := loadFromBinary_saveToBinary_append tags version e hfit []
  rw [List.append_nil] at h
  refine ⟨?_, fun other hne => ?_⟩
  · simp only [loadFromFile, saveToFile, saveBinaryToFile, loadBinaryFromFile,
      Function.update_same, except_ok_bind, StateT.run'_eq, h]
    rfl
  · simp only [loadFromFile, saveToFile, saveBinaryToFile, loadBinaryFromFile,
      Function.update_noteq hne]

end Files

theorem loadFromFile_saveToFile_main :
    (saveSections ⟨70, 69, 65, 1, 3, 5, by decide⟩ [48, 46, 49]
      ⟨[.int 7], [], [], [0], [1, 0]⟩).length < 2 ^ 64 ∧
    loadFromFile ⟨70, 69, 65, 1, 3, 5, by decide⟩ [48, 46, 49]
        (saveToFile ⟨70, 69, 65, 1, 3, 5, by decide⟩ [48, 46, 49] (fun _ => none) "main.so" ""
          ⟨[.int 7], [], [], [0], [1, 0]⟩) "main.so" =
      .ok ⟨[.int 7], [], [], [0], [1, 0]⟩ ∧
    ∀ other, other ≠ "main.so" →
      loadFromFile ⟨70, 69, 65, 1, 3, 5, by decide⟩ [48, 46, 49]
        (saveToFile ⟨70, 69, 65, 1, 3, 5, by decide⟩ [48, 46, 49] (fun _ => none) "main.so" ""
          ⟨[.int 7], [], [], [0], [1, 0]⟩) other =
        loadFromFile ⟨70, 69, 65, 1, 3, 5, by decide⟩ [48, 46, 49] (fun _ => none) other := by
  have hfit : (saveSections ⟨70, 69, 65, 1, 3, 5, by decide⟩ [48, 46, 49]
      ⟨[.int 7], [], [], [0], [1, 0]⟩).length < 2 ^ 64 := by
    simp [saveSections, saveHeader, saveGlobalSection, saveConstantSection, saveCodeSection,
      saveConstant]
  exact ⟨hfit, loadFromFile_saveToFile _ _ _ _ _ _ hfit⟩

end Tvm.VM
