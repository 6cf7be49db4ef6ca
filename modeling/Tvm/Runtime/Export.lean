import Tvm.Runtime.ModuleTree
import Tvm.VM.RoundTrip

namespace Tvm.Runtime

open Tvm.VM (Bytes Load textOf encodeLE decodeLE writeU64 writeString writeVector VMExecutable
  TypeIndex buildFuncMap saveSections saveToBinary loadFromBinary length_encodeLE length_writeU64
  length_writeString decodeLE_encodeLE toNat_uint64_ofNat readU64_writeU64 readString_writeString
  readsBack_u64 readsBack_vector writeU64_ne_nil length_le_length_flatMap
  length_le_length_flatMap_of_ne_nil loadFromBinary_saveToBinary_append)

/-- An entry of a module blob: the placeholder `_lib`, an import tree, or a typed module. -/
inductive BlobEntry (M : Type) where
  | lib
  | importTree (rowPtr childIndices : List UInt64)
  | module (tkey : Bytes) (m : M)

namespace BlobEntry

variable {M : Type}

/-- The bytes of an entry: its key, then what the reader reads after it. -/
def write (save : M → Bytes) : BlobEntry M → Bytes
  | lib => writeString libKey
  | importTree rowPtr childIndices =>
    writeString importTreeKey ++ writeVector writeU64 rowPtr ++ writeVector writeU64 childIndices
  | module tkey m => writeString tkey ++ save m

def apply (st : BinState M) : BlobEntry M → BinState M
  | lib => { st with dsoCtx := some st.modules.length, numDsoModule := st.numDsoModule + 1,
                     modules := st.modules ++ [.dso] }
  | importTree rowPtr childIndices =>
    { st with importTreeRowPtr := rowPtr, importTreeChildIndices := childIndices }
  | module _ m => { st with modules := st.modules ++ [.loaded m] }

def isLib : BlobEntry M → Bool
  | lib => true
  | _ => false

def module? : BlobEntry M → Option (LibModule M)
  | lib => some .dso
  | importTree _ _ => none
  | module _ m => some (.loaded m)

def tree? : BlobEntry M → Option (List UInt64 × List UInt64)
  | importTree rowPtr childIndices => some (rowPtr, childIndices)
  | _ => none

/-- The loader registered for a module's type key reads back exactly the bytes `save` wrote. -/
def Loads (loaders : Bytes → Option (LibLoad M)) (save : M → Bytes) : BlobEntry M → Prop
  | module tkey m => textOf tkey ≠ "_lib" ∧ textOf tkey ≠ "_import_tree" ∧
      ∃ load, loaders tkey = some load ∧ ∀ rest, load.run (save m ++ rest) = .ok (m, rest)
  | _ => True

theorem write_ne_nil (save : M → Bytes) (e : BlobEntry M) : e.write save ≠ [] := by
  cases e <;> simp [write, writeString, writeU64, encodeLE]

end BlobEntry

section Pack

variable {M : Type} (save : M → Bytes)

def packBody (entries : List (BlobEntry M)) : Bytes :=
  writeU64 (UInt64.ofNat entries.length) ++ entries.flatMap (BlobEntry.write save)

/-- The module blob: the body's length in eight little-endian bytes, then the body. -/
def packLibraryBin (entries : List (BlobEntry M)) : Bytes :=
  encodeLE 8 (packBody save entries).length ++ packBody save entries

theorem packLibraryBin_body {entries : List (BlobEntry M)}
    (hfit : (packBody save entries).length < 2 ^ 64) :
    ((packLibraryBin save entries).drop 8).take (decodeLE ((packLibraryBin save entries).take 8)) =
      packBody save entries := by
  have h8 := length_encodeLE 8 (packBody save entries).length
  have hmod : (packBody save entries).length % 256 ^ 8 = (packBody save entries).length :=
    Nat.mod_eq_of_lt hfit
  rw [packLibraryBin, List.drop_left' h8, List.take_left' h8, decodeLE_encodeLE, hmod,
    List.take_length]

end Pack

theorem libLoad_bind_of_ok {α β : Type} {x : LibLoad α} {f : α → LibLoad β} {s s' : Bytes}
    {a : α} (h : x.run s = .ok (a, s')) : (x >>= f).run s = (f a).run s' := by
  rw [StateT.run_bind, h]; rfl

theorem liftLoad_ok {α : Type} {x : Load α} {s : Bytes} {r : α × Bytes}
    (h : x.run s = .ok r) : (liftLoad x).run s = .ok r := by
  show (x.run s).mapError _ = _
  rw [h]; rfl

@[simp] theorem check_true (text : String) : check true text = pure () := rfl

section Read

variable {M : Type} (loaders : Bytes → Option (LibLoad M)) (save : M → Bytes)

theorem readEntry_write {st : BinState M} {e : BlobEntry M} (he : e.Loads loaders save)
    (hlib : e.isLib = true → st.numDsoModule = 0) (hfit : (e.write save).length < 2 ^ 64)
    (rest : Bytes) :
    (readEntry loaders st).run (e.write save ++ rest) = .ok (e.apply st, rest) := by
  cases e with
  | lib =>
    rw [BlobEntry.write, readEntry,
      libLoad_bind_of_ok (liftLoad_ok (readString_writeString (by decide) rest))]
    have h1 : textOf libKey = "_lib" := by decide
    simp [hlib rfl, BlobEntry.apply, h1]
  | importTree rowPtr childIndices =>
    simp only [BlobEntry.write, List.length_append] at hfit
    have hr := @readsBack_vector _ _ _ rowPtr (fun x _ => readsBack_u64 x) writeU64_ne_nil
      (by omega)
    have hc := @readsBack_vector _ _ _ childIndices (fun x _ => readsBack_u64 x) writeU64_ne_nil
      (by omega)
    have h1 : textOf importTreeKey ≠ "_lib" := by decide
    have h2 : textOf importTreeKey = "_import_tree" := by decide
    rw [BlobEntry.write, List.append_assoc, List.append_assoc, readEntry,
      libLoad_bind_of_ok (liftLoad_ok (readString_writeString (by decide) _))]
    dsimp only
    rw [check_true, pure_bind, if_neg h1, if_pos h2, libLoad_bind_of_ok (liftLoad_ok (hr _))]
    dsimp only
    rw [check_true, pure_bind, libLoad_bind_of_ok (liftLoad_ok (hc _))]
    rfl
  | module tkey m =>
    obtain ⟨hl, ht, load, hload, hrun⟩ := he
    simp only [BlobEntry.write, List.length_append, length_writeString] at hfit
    rw [BlobEntry.write, List.append_assoc, readEntry,
      libLoad_bind_of_ok (liftLoad_ok (readString_writeString (by omega) _))]
    dsimp only
    rw [check_true, pure_bind, if_neg hl, if_neg ht, loadModuleFromBinary, hload,
      libLoad_bind_of_ok (hrun rest)]
    rfl

@[simp] theorem apply_numDsoModule (st : BinState M) (e : BlobEntry M) :
    (e.apply st).numDsoModule = st.numDsoModule + if e.isLib then 1 else 0 := by
  cases e <;> rfl

theorem readEntries_flatMap : ∀ (entries : List (BlobEntry M)) (st : BinState M) (rest : Bytes),
    (∀ e ∈ entries, e.Loads loaders save) →
    st.numDsoModule + entries.countP BlobEntry.isLib ≤ 1 →
    (entries.flatMap (BlobEntry.write save)).length < 2 ^ 64 →
    (readEntries loaders entries.length st).run (entries.flatMap (BlobEntry.write save) ++ rest) =
      .ok (entries.foldl BlobEntry.apply st, rest)
  | [], _, _, _, _, _ => rfl
  | e :: es, st, rest, hl, hd, hf => by
    simp only [List.flatMap_cons, List.length_append, List.countP_cons] at hd hf
    have he := @readEntry_write M loaders save st e (hl e (.head _))
      (fun h => by simp only [h, if_true] at hd; omega) (by omega)
      (es.flatMap (BlobEntry.write save) ++ rest)
    rw [List.flatMap_cons, List.append_assoc, List.length_cons, readEntries,
      libLoad_bind_of_ok he]
    exact readEntries_flatMap es _ rest (fun e' h => hl e' (.tail _ h))
      (by rw [apply_numDsoModule]; split <;> split at hd <;> omega) (by omega)

theorem readLibraryBin_packBody {entries : List (BlobEntry M)}
    (hloads : ∀ e ∈ entries, e.Loads loaders save) (hlib : entries.countP BlobEntry.isLib ≤ 1)
    (hfit : (packBody save entries).length < 2 ^ 64) :
    (readLibraryBin loaders).run (packBody save entries) =
      .ok (entries.foldl BlobEntry.apply ⟨[], [], [], 0, none⟩, []) := by
  simp only [packBody, List.length_append, length_writeU64] at hfit
  have hlen := length_le_length_flatMap_of_ne_nil (BlobEntry.write_ne_nil save) entries
  rw [packBody, readLibraryBin, libLoad_bind_of_ok (liftLoad_ok (readU64_writeU64 _ _))]
  simp only [check_true, pure_bind, toNat_uint64_ofNat (show entries.length < 2 ^ 64 by omega)]
  rw [← List.append_nil (entries.flatMap _)]
  exact readEntries_flatMap loaders save entries _ [] hloads (by simpa using hlib) (by omega)

end Read

section Replay

variable {M : Type}

theorem foldl_apply_modules : ∀ (entries : List (BlobEntry M)) (st : BinState M),
    (entries.foldl BlobEntry.apply st).modules = st.modules ++ entries.filterMap BlobEntry.module?
  | [], st => by simp
  | e :: es, st => by
    rw [List.foldl_cons, foldl_apply_modules es, List.filterMap_cons]
    cases e <;> simp [BlobEntry.apply, BlobEntry.module?]

theorem foldl_apply_numDsoModule : ∀ (entries : List (BlobEntry M)) (st : BinState M),
    (entries.foldl BlobEntry.apply st).numDsoModule =
      st.numDsoModule + entries.countP BlobEntry.isLib
  | [], st => rfl
  | e :: es, st => by
    rw [List.foldl_cons, foldl_apply_numDsoModule es, apply_numDsoModule, List.countP_cons]
    omega

theorem foldl_apply_tree : ∀ (entries : List (BlobEntry M)) (st : BinState M),
    ((entries.foldl BlobEntry.apply st).importTreeRowPtr,
      (entries.foldl BlobEntry.apply st).importTreeChildIndices) =
      (entries.filterMap BlobEntry.tree?).getLastD (st.importTreeRowPtr, st.importTreeChildIndices)
  | [], st => rfl
  | e :: es, st => by
    rw [List.foldl_cons, foldl_apply_tree es, List.filterMap_cons]
    cases e with
    | importTree => simp only [BlobEntry.tree?, List.getLastD_cons]; rfl
    | _ => rfl

theorem foldl_apply_map_module (tkey : Bytes) : ∀ (ms : List M) (st : BinState M),
    (ms.map (BlobEntry.module tkey)).foldl BlobEntry.apply st =
      { st with modules := st.modules ++ ms.map .loaded }
  | [], st => by simp
  | m :: ms, st => by
    rw [List.map_cons, List.foldl_cons, foldl_apply_map_module tkey ms]
    simp [BlobEntry.apply]

end Replay

section RoundTrip

variable {M : Type} (loaders : Bytes → Option (LibLoad M)) (save : M → Bytes)

/-- The entry loop reads back every blob whose modules load back and with `_lib` once at most. -/
theorem readLibraryBin_packLibraryBin (entries : List (BlobEntry M))
    (hloads : ∀ e ∈ entries, e.Loads loaders save) (hlib : entries.countP BlobEntry.isLib ≤ 1)
    (hfit : (packBody save entries).length < 2 ^ 64) :
    (readLibraryBin loaders).run' (((packLibraryBin save entries).drop 8).take
        (decodeLE ((packLibraryBin save entries).take 8))) =
      .ok ⟨entries.filterMap BlobEntry.module?,
        ((entries.filterMap BlobEntry.tree?).getLastD ([], [])).1,
        ((entries.filterMap BlobEntry.tree?).getLastD ([], [])).2,
        entries.countP BlobEntry.isLib,
        (entries.filterMap BlobEntry.module?).findIdx? LibModule.isDso⟩ := by
  have hrun := readLibraryBin_packBody loaders save hloads hlib hfit
  have hdso := (readLibraryBin_dsoTracked loaders hrun).ctx
  have hm := foldl_apply_modules entries ⟨[], [], [], 0, none⟩
  have hn := foldl_apply_numDsoModule entries ⟨[], [], [], 0, none⟩
  have ht := foldl_apply_tree entries ⟨[], [], [], 0, none⟩
  rw [packLibraryBin_body save hfit, StateT.run'_eq, hrun]
  generalize entries.foldl BlobEntry.apply ⟨[], [], [], 0, none⟩ = st at hdso hm hn ht
  obtain ⟨mods, rowPtr, childIndices, n, ctx⟩ := st
  dsimp only at hdso hm hn ht
  rw [List.nil_append] at hm
  rw [Nat.zero_add] at hn
  subst hm hn hdso
  rw [← ht]
  rfl

end RoundTrip

def twoModuleEntries : List (BlobEntry Unit) := [.lib, .module [109] (), .importTree [0, 1, 1] [1]]

example : packLibraryBin (fun _ => []) twoModuleEntries = twoModuleBlob := by decide

theorem readLibraryBin_packLibraryBin_twoModules :
    twoModuleEntries.countP BlobEntry.isLib ≤ 1 ∧
    (packBody (fun _ => []) twoModuleEntries).length < 2 ^ 64 ∧
    (readLibraryBin fun _ => some (pure ())).run'
        (((packLibraryBin (fun _ => []) twoModuleEntries).drop 8).take
          (decodeLE ((packLibraryBin (fun _ => []) twoModuleEntries).take 8))) =
      .ok ⟨[.dso, .loaded ()], [0, 1, 1], [1], 1, some 0⟩ :=
  ⟨by decide, by decide, readLibraryBin_packLibraryBin (fun _ => some (pure ())) (fun _ => [])
    twoModuleEntries (fun e he => by
      simp only [twoModuleEntries, List.mem_cons, List.not_mem_nil, or_false] at he
      rcases he with rfl | rfl | rfl
      · trivial
      · exact ⟨by decide, by decide, pure (), rfl, fun _ => rfl⟩
      · trivial) (by decide) (by decide)⟩

section MultipleDso

variable {M : Type} (loaders : Bytes → Option (LibLoad M)) (save : M → Bytes)

theorem readEntry_second_lib {st : BinState M} (h1 : st.numDsoModule = 1) (rest : Bytes) :
    (readEntry loaders st).run (writeString libKey ++ rest) =
      .error (.checkFailed "num_dso_module == 1U"
        "Multiple dso module detected, please upgrade tvm  to the latest before exporting the module") := by
  rw [readEntry, libLoad_bind_of_ok (liftLoad_ok (readString_writeString (by decide) rest))]
  have h : textOf libKey = "_lib" := by decide
  simp [h, h1]
  rfl

theorem readEntries_multipleDso : ∀ (entries : List (BlobEntry M)) (st : BinState M) (rest : Bytes),
    (∀ e ∈ entries, e.Loads loaders save) → st.numDsoModule ≤ 1 →
    2 ≤ st.numDsoModule + entries.countP BlobEntry.isLib →
    (entries.flatMap (BlobEntry.write save)).length < 2 ^ 64 →
    (readEntries loaders entries.length st).run (entries.flatMap (BlobEntry.write save) ++ rest) =
      .error (.checkFailed "num_dso_module == 1U"
        "Multiple dso module detected, please upgrade tvm  to the latest before exporting the module")
  | [], st, _, _, h1, h2, _ => absurd h2 (by simp only [List.countP_nil]; omega)
  | e :: es, st, rest, hl, h1, h2, hf => by
    simp only [List.flatMap_cons, List.length_append, List.countP_cons] at h2 hf
    rw [List.flatMap_cons, List.append_assoc, List.length_cons, readEntries]
    by_cases hsecond : e.isLib = true ∧ st.numDsoModule = 1
    · obtain ⟨hlib, hn⟩ := hsecond
      cases e with
      | lib => rw [StateT.run_bind, BlobEntry.write, readEntry_second_lib loaders hn]; rfl
      | _ => cases hlib
    · have he := @readEntry_write M loaders save st e (hl e (.head _))
        (fun h => by simp only [h, true_and] at hsecond; omega) (by omega)
        (es.flatMap (BlobEntry.write save) ++ rest)
      rw [libLoad_bind_of_ok he]
      have hn : (e.apply st).numDsoModule ≤ 1 ∧
          2 ≤ (e.apply st).numDsoModule + es.countP BlobEntry.isLib := by
        rw [apply_numDsoModule]
        cases hb : e.isLib <;> simp only [hb, true_and, Bool.false_eq_true, if_true, if_false] at hsecond h2 ⊢ <;> omega
      exact readEntries_multipleDso es _ rest (fun e' h => hl e' (.tail _ h)) hn.1 hn.2 (by omega)

/-- A blob holding `_lib` twice fails `ICHECK_EQ(num_dso_module, 1U)` at the second. -/
theorem createModuleFromLibrary_multipleDso (entries : List (BlobEntry M))
    (hloads : ∀ e ∈ entries, e.Loads loaders save) (hlib : 2 ≤ entries.countP BlobEntry.isLib)
    (hfit : (packBody save entries).length < 2 ^ 64) :
    createModuleFromLibrary loaders (some (packLibraryBin save entries)) =
      .error (.checkFailed "num_dso_module == 1U"
        "Multiple dso module detected, please upgrade tvm  to the latest before exporting the module") := by
  have hlen := length_le_length_flatMap_of_ne_nil (BlobEntry.write_ne_nil save) entries
  have hbody : (entries.flatMap (BlobEntry.write save)).length < 2 ^ 64 := by
    simp only [packBody, List.length_append, length_writeU64] at hfit; omega
  have hrun : (readLibraryBin loaders).run (packBody save entries) = .error (.checkFailed "num_dso_module == 1U"
        "Multiple dso module detected, please upgrade tvm  to the latest before exporting the module") := by
    rw [packBody, readLibraryBin, libLoad_bind_of_ok (liftLoad_ok (readU64_writeU64 _ _))]
    simp only [check_true, pure_bind, toNat_uint64_ofNat (show entries.length < 2 ^ 64 by omega)]
    rw [← List.append_nil (entries.flatMap _)]
    exact readEntries_multipleDso loaders save entries _ [] hloads (Nat.zero_le 1) (by simpa using hlib) hbody
  rw [createModuleFromLibrary, processLibraryBin, packLibraryBin_body save hfit, StateT.run'_eq, hrun]
  rfl

end MultipleDso

theorem createModuleFromLibrary_multipleDso_twoLibs :
    2 ≤ ([.lib, .lib] : List (BlobEntry Unit)).countP BlobEntry.isLib ∧
    (packBody (fun _ => []) ([.lib, .lib] : List (BlobEntry Unit))).length < 2 ^ 64 ∧
    createModuleFromLibrary (fun _ => (none : Option (LibLoad Unit)))
        (some (packLibraryBin (fun _ => []) ([.lib, .lib] : List (BlobEntry Unit)))) =
      .error (.checkFailed "num_dso_module == 1U"
        "Multiple dso module detected, please upgrade tvm  to the latest before exporting the module") :=
  ⟨by decide, by decide, createModuleFromLibrary_multipleDso (fun _ => none) (fun _ => [])
    [.lib, .lib] (fun e he => by
      simp only [List.mem_cons, List.not_mem_nil, or_false] at he
      rcases he with rfl | rfl <;> trivial) (by decide) (by decide)⟩


section Unregistered

variable {M : Type} (loaders : Bytes → Option (LibLoad M)) (save : M → Bytes)

theorem readEntries_add : ∀ (m n : Nat) (st : BinState M),
    readEntries loaders (m + n) st = readEntries loaders m st >>= readEntries loaders n
  | 0, n, st => by simp [readEntries]
  | m + 1, n, st => by
    rw [Nat.add_right_comm, readEntries, readEntries, bind_assoc]
    congr 1
    funext st'
    exact readEntries_add m n st'

theorem readEntry_unregistered {st : BinState M} {tkey : Bytes} (hl : textOf tkey ≠ "_lib")
    (ht : textOf tkey ≠ "_import_tree") (hnone : loaders tkey = none)
    (hfit : tkey.length < 2 ^ 64) (rest : Bytes) :
    (readEntry loaders st).run (writeString tkey ++ rest) =
      .error (.fatal ("Binary was created using \x7b" ++ textOf tkey ++
        "\x7d but a loader of that name is not registered." ++
        "Perhaps you need to recompile with this runtime enabled.")) := by
  rw [readEntry, libLoad_bind_of_ok (liftLoad_ok (readString_writeString hfit rest))]
  dsimp only
  rw [check_true, pure_bind, if_neg hl, if_neg ht, loadModuleFromBinary, hnone]
  rfl

/-- A module of an unregistered type key stops the load at the `LOG(FATAL)` that names the key. -/
theorem createModuleFromLibrary_unregistered (pre post : List (BlobEntry M)) (tkey : Bytes) (m : M)
    (hloads : ∀ e ∈ pre, e.Loads loaders save) (hlib : pre.countP BlobEntry.isLib ≤ 1)
    (hl : textOf tkey ≠ "_lib") (ht : textOf tkey ≠ "_import_tree") (hnone : loaders tkey = none)
    (hfit : (packBody save (pre ++ .module tkey m :: post)).length < 2 ^ 64) :
    createModuleFromLibrary loaders (some (packLibraryBin save (pre ++ .module tkey m :: post))) =
      .error (.fatal ("Binary was created using \x7b" ++ textOf tkey ++
        "\x7d but a loader of that name is not registered." ++
        "Perhaps you need to recompile with this runtime enabled.")) := by
  set entries := pre ++ .module tkey m :: post with hentries
  have hlen := length_le_length_flatMap_of_ne_nil (BlobEntry.write_ne_nil save) entries
  have hbody : (entries.flatMap (BlobEntry.write save)).length < 2 ^ 64 := by
    simp only [packBody, List.length_append, length_writeU64] at hfit; omega
  have hsplit : entries.flatMap (BlobEntry.write save) = pre.flatMap (BlobEntry.write save) ++
      (writeString tkey ++ (save m ++ post.flatMap (BlobEntry.write save))) := by
    simp [hentries, BlobEntry.write, List.append_assoc]
  have hpre : (pre.flatMap (BlobEntry.write save)).length < 2 ^ 64 := by
    rw [hsplit, List.length_append] at hbody; omega
  have htkey : tkey.length < 2 ^ 64 := by
    rw [hsplit, List.length_append, List.length_append, length_writeString] at hbody; omega
  have hrun : (readLibraryBin loaders).run (packBody save entries) = .error (.fatal
      ("Binary was created using \x7b" ++ textOf tkey ++
        "\x7d but a loader of that name is not registered." ++
        "Perhaps you need to recompile with this runtime enabled.")) := by
    rw [packBody, readLibraryBin, libLoad_bind_of_ok (liftLoad_ok (readU64_writeU64 _ _))]
    simp only [check_true, pure_bind, toNat_uint64_ofNat (show entries.length < 2 ^ 64 by omega)]
    rw [hsplit, hentries, List.length_append, readEntries_add,
      libLoad_bind_of_ok (readEntries_flatMap loaders save pre _ _ hloads (by simpa using hlib) hpre),
      List.length_cons, readEntries, StateT.run_bind, readEntry_unregistered loaders hl ht hnone htkey]
    rfl
  rw [createModuleFromLibrary, processLibraryBin, packLibraryBin_body save hfit, StateT.run'_eq, hrun]
  rfl

end Unregistered

theorem createModuleFromLibrary_unregistered_x :
    ([.lib] : List (BlobEntry Unit)).countP BlobEntry.isLib ≤ 1 ∧ textOf [120] ≠ "_lib" ∧
    textOf [120] ≠ "_import_tree" ∧
    (packBody (fun _ => []) ([.lib] ++ .module [120] () :: [] : List (BlobEntry Unit))).length <
      2 ^ 64 ∧
    createModuleFromLibrary (fun _ => (none : Option (LibLoad Unit)))
        (some (packLibraryBin (fun _ => []) ([.lib] ++ .module [120] () :: []))) =
      .error (.fatal ("Binary was created using \x7b" ++ textOf [120] ++
        "\x7d but a loader of that name is not registered." ++
        "Perhaps you need to recompile with this runtime enabled.")) :=
  ⟨by decide, by decide, by decide, by decide, createModuleFromLibrary_unregistered
    (fun _ => none) (fun _ => []) [.lib] [] [120] () (fun e he => by
      simp only [List.mem_cons, List.not_mem_nil, or_false] at he
      subst he; trivial) (by decide) (by decide) (by decide) rfl (by decide)⟩


section Star

variable {M : Type} {st : BinState M} {k : Nat}
  (hr : st.importTreeRowPtr = 0 :: List.replicate (k + 1) (UInt64.ofNat k))
  (hc : st.importTreeChildIndices = (List.range' 1 k).map UInt64.ofNat)
  (hm : st.modules.length = k + 1) (hk : k + 1 < 2 ^ 64)
include hr

theorem rowRange_star_succ {i : Nat} (hi : i < k) : st.rowRange (i + 1) = [] := by
  simp [BinState.rowRange, hr, List.getElem?_replicate, show i < k + 1 by omega,
    show i + 1 < k + 1 by omega]

include hk

theorem rowRange_star_zero : st.rowRange 0 = List.range' 0 k := by
  simp [BinState.rowRange, hr, toNat_uint64_ofNat (show k < 2 ^ 64 by omega)]

include hc

theorem rowSlices_star :
    (List.range (k + 1)).map st.rowSlice = List.range' 1 k :: List.replicate k [] := by
  rw [List.range_succ_eq_map, List.map_cons, List.map_map]
  congr 1
  · have hchild : ∀ j ∈ List.range' 0 k,
        (st.importTreeChildIndices.getD j 0).toNat = 1 + j := fun j hj => by
      rw [List.mem_range'_1] at hj
      simp [hc, show j < k by omega, List.getElem?_range',
        toNat_uint64_ofNat (show 1 + j < 2 ^ 64 by omega)]
    rw [BinState.rowSlice, rowRange_star_zero hr hk, List.map_congr_left hchild,
      List.map_add_range']
  · rw [List.map_congr_left fun i hi => show (st.rowSlice ∘ Nat.succ) i = [] by
      rw [Function.comp_apply, BinState.rowSlice, rowRange_star_succ hr (List.mem_range.1 hi),
        List.map_nil], List.map_const', List.length_range]

include hm

theorem rowFits_star {i : Nat} (hi : i < k + 1) : st.RowFits i := by
  refine ⟨by simp [hr]; omega, fun j hj => ?_⟩
  cases i with
  | zero =>
    rw [rowRange_star_zero hr hk, List.mem_range'_1] at hj
    have hjk : j < k := by omega
    simp [hc, hm, hjk, List.getElem?_range', toNat_uint64_ofNat (show 1 + j < 2 ^ 64 by omega)]
    omega
  | succ i => rw [rowRange_star_succ hr (by omega)] at hj; cases hj

end Star

section VMLibrary

variable (tags : TypeIndex) (version : Bytes)

/-- `relax.VMExecutable`, the type key of a VM executable. -/
def vmExecutableKey : Bytes :=
  [114, 101, 108, 97, 120, 46, 86, 77, 69, 120, 101, 99, 117, 116, 97, 98, 108, 101]

def vmGlobals (name : String) : Option (LibLoad VMExecutable) :=
  if name = "runtime.module.loadbinary_relax.VMExecutable" then
    some (liftLoad (loadFromBinary tags version))
  else none

/-- The loader `LoadModuleFromBinary` finds for a type key: `runtime.module.loadbinary_<key>`. -/
def vmLoaders (tkey : Bytes) : Option (LibLoad VMExecutable) :=
  vmGlobals tags version ("runtime.module.loadbinary_" ++ textOf tkey)

/-- The entries of a library bundling the executables `es`: `_lib`, each of them, the tree. -/
def vmLibrary (es : List VMExecutable) : List (BlobEntry VMExecutable) :=
  .lib :: es.map (.module vmExecutableKey) ++
    [.importTree (0 :: List.replicate (es.length + 1) (UInt64.ofNat es.length))
      ((List.range' 1 es.length).map UInt64.ofNat)]

theorem vmLoaders_vmExecutableKey :
    vmLoaders tags version vmExecutableKey = some (liftLoad (loadFromBinary tags version)) := by
  rw [vmLoaders, vmGlobals, if_pos (by decide)]

/-- What `LoadFromBinary` makes of a saved executable: the function map rebuilt from the table. -/
def reloaded (e : VMExecutable) : VMExecutable :=
  ⟨e.constants, e.funcTable, buildFuncMap e.funcTable, e.instrOffset, e.instrData⟩

theorem packBody_vmLibrary_reloaded (es : List VMExecutable) :
    packBody (saveToBinary tags version) (vmLibrary (es.map reloaded)) =
      packBody (saveToBinary tags version) (vmLibrary es) := by
  simp only [packBody, vmLibrary, List.length_cons, List.length_append, List.length_map,
    List.flatMap_cons, List.flatMap_append, List.flatMap_map]
  rfl

theorem vmLibrary_fits {es : List VMExecutable}
    (hfit : (packBody (saveToBinary tags version) (vmLibrary es)).length < 2 ^ 64) :
    es.length + 1 < 2 ^ 64 ∧ ∀ e ∈ es, (saveSections tags version e).length < 2 ^ 64 := by
  simp only [packBody, List.length_append, length_writeU64] at hfit
  refine ⟨?_, fun e he => ?_⟩
  · have := length_le_length_flatMap_of_ne_nil
      (BlobEntry.write_ne_nil (saveToBinary tags version)) (vmLibrary es)
    rw [show (vmLibrary es).length = es.length + 2 by simp [vmLibrary]] at this
    omega
  · have := @length_le_length_flatMap _ (BlobEntry.write (saveToBinary tags version)) _ _
      (show BlobEntry.module vmExecutableKey e ∈ vmLibrary es by simp [vmLibrary, he])
    simp only [BlobEntry.write, saveToBinary, List.length_append, length_writeString] at this
    omega

theorem vmLibrary_loads {es : List VMExecutable}
    (hsec : ∀ e ∈ es, (saveSections tags version e).length < 2 ^ 64) :
    ∀ x ∈ vmLibrary (es.map reloaded),
      x.Loads (vmLoaders tags version) (saveToBinary tags version) := by
  intro x hx
  simp only [vmLibrary, List.mem_cons, List.mem_append, List.map_map, List.mem_map,
    List.not_mem_nil, or_false] at hx
  rcases hx with (rfl | ⟨e, he, rfl⟩) | rfl
  · trivial
  · exact ⟨by decide, by decide, _, vmLoaders_vmExecutableKey tags version, fun rest =>
      liftLoad_ok (loadFromBinary_saveToBinary_append tags version _ (hsec e he) rest)⟩
  · trivial

theorem foldl_apply_vmLibrary (es : List VMExecutable) :
    (vmLibrary es).foldl BlobEntry.apply ⟨[], [], [], 0, none⟩ =
      ⟨.dso :: es.map .loaded, 0 :: List.replicate (es.length + 1) (UInt64.ofNat es.length),
        (List.range' 1 es.length).map UInt64.ofNat, 1, some 0⟩ := by
  simp [vmLibrary, List.foldl_append, foldl_apply_map_module, BlobEntry.apply]

/-- A library bundling VM executables loads back whole, its DSO module importing each of them. -/
theorem createModuleFromLibrary_vmLibrary (es : List VMExecutable)
    (hfit : (packBody (saveToBinary tags version) (vmLibrary es)).length < 2 ^ 64) :
    createModuleFromLibrary (vmLoaders tags version)
        (some (packLibraryBin (saveToBinary tags version) (vmLibrary es))) =
      .ok ⟨.dso :: es.map fun e =>
          .loaded ⟨e.constants, e.funcTable, buildFuncMap e.funcTable, e.instrOffset, e.instrData⟩,
        List.range' 1 es.length :: es.map (fun _ => []), .index 0, some (.index 0)⟩ := by
  have hpack := packBody_vmLibrary_reloaded tags version es
  have hfit' := hpack ▸ hfit
  obtain ⟨hk, hsec⟩ := vmLibrary_fits tags version hfit
  -- the entry loop reads the reloaded executables back, in order
  have hrun := readLibraryBin_packBody (vmLoaders tags version) (saveToBinary tags version)
    (vmLibrary_loads tags version hsec) (by simp [vmLibrary, BlobEntry.isLib]) hfit'
  rw [foldl_apply_vmLibrary] at hrun
  rw [show packLibraryBin (saveToBinary tags version) (vmLibrary es) =
      packLibraryBin (saveToBinary tags version) (vmLibrary (es.map reloaded)) by
    rw [packLibraryBin, packLibraryBin, hpack], createModuleFromLibrary, processLibraryBin,
    packLibraryBin_body _ hfit', StateT.run'_eq, hrun]
  -- then the import tree gives the DSO module every executable, and the others nothing
  simp only [List.length_map, except_map_ok, except_ok_bind, List.isEmpty_cons, Bool.false_eq_true,
    if_false, List.length_cons]
  rw [(importLoop_ok_iff _ _ _).2 ⟨fun i hi => rowFits_star rfl rfl (by simp) hk hi, rfl⟩,
    rowSlices_star rfl rfl hk]
  simp only [except_ok_bind, Bool.not_false, if_true, pure_bind, except_pure, List.map_map,
    List.map_const', Option.map_some']
  rfl

end VMLibrary

def mainExecutable : VMExecutable :=
  ⟨[], [⟨1, [109, 97, 105, 110], 0, 1, 1, 2, [[120]]⟩], [], [0], [1, 0]⟩

theorem createModuleFromLibrary_vmLibrary_main :
    (packBody (saveToBinary ⟨70, 69, 65, 1, 3, 5, by decide⟩ [48, 46, 49])
        (vmLibrary [mainExecutable])).length < 2 ^ 64 ∧
    createModuleFromLibrary (vmLoaders ⟨70, 69, 65, 1, 3, 5, by decide⟩ [48, 46, 49])
        (some (packLibraryBin (saveToBinary ⟨70, 69, 65, 1, 3, 5, by decide⟩ [48, 46, 49])
          (vmLibrary [mainExecutable]))) =
      .ok ⟨[.dso, .loaded ⟨[], [⟨1, [109, 97, 105, 110], 0, 1, 1, 2, [[120]]⟩],
          buildFuncMap [⟨1, [109, 97, 105, 110], 0, 1, 1, 2, [[120]]⟩], [0], [1, 0]⟩],
        [[1], []], .index 0, some (.index 0)⟩ :=
  have hfit : (packBody (saveToBinary ⟨70, 69, 65, 1, 3, 5, by decide⟩ [48, 46, 49])
      (vmLibrary [mainExecutable])).length < 2 ^ 64 := by
    simp [packBody, vmLibrary, BlobEntry.write, saveToBinary, saveSections, Tvm.VM.saveHeader,
      Tvm.VM.saveGlobalSection, Tvm.VM.VMFuncInfo.save, Tvm.VM.saveConstantSection,
      Tvm.VM.saveCodeSection, mainExecutable, vmExecutableKey, importTreeKey, libKey]
  ⟨hfit, createModuleFromLibrary_vmLibrary _ _ _ hfit⟩

end Tvm.Runtime
