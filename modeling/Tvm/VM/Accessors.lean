import Tvm.VM.Disassembly

namespace Tvm.VM

/-- `VMExecutable::HasFunction`: `func_map.count(name)`. -/
def hasFunction (e : VMExecutable) (name : Bytes) : Bool := (e.funcMap.lookup name).isSome

/-- `VMExecutable::SetInstructionData(i, j, val)`: word `j` of instruction `i` becomes `val`. -/
def setInstructionData (e : VMExecutable) (i : Nat) (j val : UInt64) :
    Except DisasmError VMExecutable := do
  unless i < e.instrOffset.length do throw (.checkFailed "i < instr_offset.size()")
  let instrIdx ← readAt "instr_offset" e.instrOffset i
  unless (instrIdx + j).toNat < e.instrData.length do
    throw (.checkFailed "instr_idx + j < instr_data.size()")
  pure { e with instrData := e.instrData.set (instrIdx + j).toNat val }

/-- Modelled from the spec: the instruction `GetInstruction` decodes once word `j` holds `v`. -/
def Instruction.patch (ins : Instruction) (j v : UInt64) : Option Instruction :=
  match ins with
  | .call d f n args =>
    if j = 1 then some (.call v f n args) else if j = 2 then some (.call d v n args)
    else if j = 3 then some (.call d f v args) else none
  | .ret _ => if j = 1 then some (.ret v) else none
  | .goto _ => if j = 1 then some (.goto v) else none
  | .if c o => if j = 1 then some (.if v o) else if j = 2 then some (.if c v) else none

section Patch

theorem readAt_ok_iff {vector : String} {v : List UInt64} {i : Nat} {w : UInt64} :
    readAt vector v i = .ok w ↔ ∃ h : i < v.length, v[i] = w := by
  unfold readAt vectorAt
  split <;> simp [*]

theorem readAt_set_ne {vector : String} (v : List UInt64) {p q : Nat} (x : UInt64) (h : p ≠ q) :
    readAt vector (v.set p x) q = readAt vector v q := by
  simp [readAt, vectorAt, List.getElem_set_ne h]

theorem readAt_set_self {vector : String} (v : List UInt64) (p : Nat) (x : UInt64) :
    readAt vector (v.set p x) p = (fun _ => x) <$> readAt vector v p := by
  by_cases h : p < v.length <;> simp [readAt, vectorAt, h]

theorem uint64_toNat_add (a b : UInt64) : (a + b).toNat = (a.toNat + b.toNat) % 2 ^ 64 := rfl

theorem toNat_add_ne (off : UInt64) {a b : UInt64} (h : a ≠ b) :
    (off + a).toNat ≠ (off + b).toNat := by
  intro he
  rw [uint64_toNat_add, uint64_toNat_add] at he
  have := (show off.toNat < 2 ^ 64 from off.toBitVec.isLt)
  have := (show a.toNat < 2 ^ 64 from a.toBitVec.isLt)
  have := (show b.toNat < 2 ^ 64 from b.toBitVec.isLt)
  exact h (UInt64.toNat.inj (by omega))

theorem readAt_set_add {vector : String} (v : List UInt64) (off : UInt64) {a b : UInt64}
    (x : UInt64) (h : a ≠ b) :
    readAt vector (v.set (off + a).toNat x) (off + b).toNat = readAt vector v (off + b).toNat :=
  readAt_set_ne v x (toNat_add_ne off h)

theorem readAt_set_add_opcode {vector : String} (v : List UInt64) (off : UInt64) {a : UInt64}
    (x : UInt64) (h : a ≠ 0) :
    readAt vector (v.set (off + a).toNat x) off.toNat = readAt vector v off.toNat := by
  have h0 : (off + 0).toNat = off.toNat := Nat.mod_eq_of_lt off.toBitVec.isLt
  rw [← h0]
  exact readAt_set_add v off x h

theorem setInstructionData_ok {e : VMExecutable} {i : Nat} {off : UInt64}
    (hoff : readAt "instr_offset" e.instrOffset i = .ok off) {j x : UInt64}
    (hx : readAt "instr_data" e.instrData (off + j).toNat = .ok x) (v : UInt64) :
    setInstructionData e i j v = .ok { e with instrData := e.instrData.set (off + j).toNat v } := by
  simp [setInstructionData, (readAt_ok_iff.1 hoff).1, hoff, (readAt_ok_iff.1 hx).1]

/-- Patching a fixed field of a decoding instruction passes both checks and replaces that field. -/
theorem getInstruction_setInstructionData (bc : Bytecode) (e : VMExecutable) {i : Nat}
    {j v : UInt64} {ins ins' : Instruction}
    (h : getInstruction bc e i = .ok ins) (hp : ins.patch j v = some ins') :
    ∃ e', setInstructionData e i j v = .ok e' ∧ getInstruction bc e' i = .ok ins' := by
  unfold getInstruction at h
  obtain ⟨off, hoff, h⟩ := except_bind_eq_ok h
  obtain ⟨w, hw, h⟩ := except_bind_eq_ok h
  rcases hop : bc.opcode w with _ | ⟨_ | _ | _ | _⟩ <;> simp only [hop] at h
  · cases h
  on_goal 1 =>
    obtain ⟨d, hd, h⟩ := except_bind_eq_ok h
    obtain ⟨f, hf, h⟩ := except_bind_eq_ok h
    obtain ⟨n, hn, h⟩ := except_bind_eq_ok h
    cases h
  on_goal 2 =>
    obtain ⟨r, hr, h⟩ := except_bind_eq_ok h
    cases h
  on_goal 3 =>
    obtain ⟨r, hr, h⟩ := except_bind_eq_ok h
    cases h
  on_goal 4 =>
    obtain ⟨c, hc, h⟩ := except_bind_eq_ok h
    obtain ⟨o, ho, h⟩ := except_bind_eq_ok h
    cases h
  -- the patched word was read, so it is in bounds; every other word keeps its value
  all_goals
    simp only [Instruction.patch] at hp
    split_ifs at hp <;> cases hp <;> subst_vars <;>
      exact ⟨_, setInstructionData_ok hoff ‹_› v, by
        simp (disch := decide) only [getInstruction, hoff, hw, hop, readAt_set_add_opcode,
          readAt_set_add, readAt_set_self, except_ok_bind, except_map_ok, except_pure, *]⟩

def sampleBytecode : Bytecode :=
  ⟨fun w => if w = 0 then some .call else if w = 1 then some .ret else if w = 2 then some .goto
      else if w = 3 then some .if else none,
    fun w => w.toNat, fun _ => none, fun w => w.toNat, id, 0, 1, 0, 1, 2, by decide⟩

theorem getInstruction_setInstructionData_if :
    getInstruction sampleBytecode ⟨[], [], [], [0], [3, 5, 7]⟩ 0 = .ok (.if 5 7) ∧
    (Instruction.if 5 7).patch 2 9 = some (.if 5 9) ∧
    ∃ e', setInstructionData ⟨[], [], [], [0], [3, 5, 7]⟩ 0 2 9 = .ok e' ∧
      getInstruction sampleBytecode e' 0 = .ok (.if 5 9) :=
  ⟨rfl, rfl, getInstruction_setInstructionData _ _ rfl rfl⟩

end Patch

section FuncMap

theorem buildFuncMap_concat (table : List VMFuncInfo) (f : VMFuncInfo) :
    buildFuncMap (table ++ [f]) = (f.name, UInt64.ofNat table.length) :: buildFuncMap table := by
  simp [buildFuncMap, List.enum_append]

theorem lookup_buildFuncMap_iff (table : List VMFuncInfo) (name : Bytes) (i : UInt64) :
    (buildFuncMap table).lookup name = some i ↔
      ∃ k, i = UInt64.ofNat k ∧ table[k]?.map (·.name) = some name ∧
        ∀ k', k < k' → table[k']?.map (·.name) ≠ some name := by
  induction table using List.reverseRecOn with
  | nil => simp [buildFuncMap]
  | append_singleton table f ih =>
    have hget : ∀ k : Nat, (table ++ [f])[k]?.map (·.name) =
        if k < table.length then table[k]?.map (·.name)
        else if k = table.length then some f.name else none := by
      intro k
      split_ifs with h1 h2
      · rw [List.getElem?_append_left h1]
      · subst h2; simp
      · rw [List.getElem?_eq_none (by simp; omega)]; rfl
    rw [buildFuncMap_concat, List.lookup_cons]
    by_cases hf : name = f.name
    · -- the new entry shadows every earlier one of its name
      subst hf
      simp only [beq_self_eq_true, Option.some.injEq]
      constructor
      · rintro rfl
        refine ⟨table.length, rfl, by simp [hget], fun k' hk' => ?_⟩
        rw [hget, if_neg (by omega), if_neg (by omega)]
        simp
      · rintro ⟨k, rfl, hk, hlast⟩
        rw [hget] at hk
        split_ifs at hk with h1 h2
        · exact absurd (by simp [hget]) (hlast table.length h1)
        · rw [h2]
    · have hsame : ∀ k : Nat, (table ++ [f])[k]?.map (·.name) = some name ↔
          table[k]?.map (·.name) = some name := by
        intro k
        rw [hget]
        split_ifs with h1 h2
        · exact Iff.rfl
        · subst h2
          simp [Ne.symm hf]
        · simp [List.getElem?_eq_none (show table.length ≤ k by omega)]
      simp only [beq_eq_false_iff_ne.2 hf, ne_eq, hsame]
      exact ih

theorem lookup_buildFuncMap_isSome (table : List VMFuncInfo) (name : Bytes) :
    ((buildFuncMap table).lookup name).isSome ↔ ∃ f ∈ table, f.name = name := by
  induction table using List.reverseRecOn with
  | nil => simp [buildFuncMap]
  | append_singleton table f ih =>
    rw [buildFuncMap_concat, List.lookup_cons]
    by_cases hf : name = f.name
    · subst hf
      simpa using ⟨f, .inr rfl, rfl⟩
    · simp [beq_eq_false_iff_ne.2 hf, ih, or_and_right, exists_or, Ne.symm hf]

variable (tags : TypeIndex) (version : Bytes)

theorem funcMap_of_loadFromBinary {blob rest : Bytes} {e : VMExecutable}
    (h : (loadFromBinary tags version).run blob = .ok (e, rest)) :
    e.funcMap = buildFuncMap e.funcTable := by
  obtain ⟨⟨_, code⟩, -, h⟩ := except_bind_eq_ok h
  obtain ⟨e', he, h⟩ := except_bind_eq_ok h
  cases h
  obtain ⟨_, h⟩ := stateT_run'_ok he
  -- header, global section, constant section, code section
  obtain ⟨_, -, h⟩ := except_bind_eq_ok h
  obtain ⟨_, -, h⟩ := except_bind_eq_ok h
  obtain ⟨_, -, h⟩ := except_bind_eq_ok h
  obtain ⟨_, -, h⟩ := except_bind_eq_ok h
  cases h
  rfl

/-- After an accepted load `func_map` holds the table's names, each at the last index holding it. -/
theorem loadFromBinary_funcMap {blob rest : Bytes} {e : VMExecutable}
    (h : (loadFromBinary tags version).run blob = .ok (e, rest)) :
    (∀ name, hasFunction e name = true ↔ ∃ f ∈ e.funcTable, f.name = name) ∧
      ∀ name i, e.funcMap.lookup name = some i ↔
        ∃ k, i = UInt64.ofNat k ∧ e.funcTable[k]?.map (·.name) = some name ∧
          ∀ k', k < k' → e.funcTable[k']?.map (·.name) ≠ some name := by
  have hmap := funcMap_of_loadFromBinary tags version h
  exact ⟨fun name => by rw [hasFunction, hmap]; exact lookup_buildFuncMap_isSome _ _,
    fun name i => hmap ▸ lookup_buildFuncMap_iff _ _ _⟩

theorem loadFromBinary_funcMap_twoMains :
    ∃ e, (loadFromBinary ⟨70, 69, 65, 1, 3, 5, by decide⟩ [48]).run
        (saveToBinary ⟨70, 69, 65, 1, 3, 5, by decide⟩ [48]
          ⟨[], [⟨1, [102], 0, 0, 0, 0, []⟩, ⟨0, [102], 0, 0, 0, 0, []⟩], [], [], []⟩) = .ok (e, []) ∧
      (∀ name, hasFunction e name = true ↔ ∃ f ∈ e.funcTable, f.name = name) ∧
      ∀ name i, e.funcMap.lookup name = some i ↔
        ∃ k, i = UInt64.ofNat k ∧ e.funcTable[k]?.map (·.name) = some name ∧
          ∀ k', k < k' → e.funcTable[k']?.map (·.name) ≠ some name := by
  have hload := loadFromBinary_saveToBinary_append ⟨70, 69, 65, 1, 3, 5, by decide⟩ [48]
    ⟨[], [⟨1, [102], 0, 0, 0, 0, []⟩, ⟨0, [102], 0, 0, 0, 0, []⟩], [], [], []⟩
    (by simp [saveSections, saveHeader, saveGlobalSection, saveConstantSection, saveCodeSection,
      VMFuncInfo.save, writeSizeT]) []
  rw [List.append_nil] at hload
  exact ⟨_, hload, loadFromBinary_funcMap _ _ hload⟩

end FuncMap

end Tvm.VM
