import Tvm.VM.Stream

namespace Tvm.Runtime

open Tvm.VM (Bytes Load LoadError textOf encodeLE decodeLE readU64 readString readVector writeU64
  writeString writeVector)

/-- How `ProcessLibraryBin` stops without a root module. -/
inductive LibError where
  /-- A failed `ICHECK`, with its condition and the text it streams. -/
  | checkFailed (cond msg : String)
  /-- `LOG(FATAL)`, with the text it streams. -/
  | fatal (msg : String)
  /-- `v[i]` past the end of the vector `v`, which nothing checks. -/
  | outOfBounds (vector : String) (index : Nat)
  /-- An error of the stream readers; those used here never raise one. -/
  | stream (e : LoadError)
  deriving DecidableEq, Repr

abbrev LibLoad := StateT Bytes (Except LibError)

def liftLoad {α : Type} (x : Load α) : LibLoad α := fun s => (x.run s).mapError .stream

/-- `ICHECK(cond)`. -/
def check (cond : Bool) (text : String) : LibLoad Unit :=
  unless cond do throw (.checkFailed text "")

/-- A module of the list: the library's DSO module for `_lib`, or what a loader returned. -/
inductive LibModule (M : Type) where
  | dso
  | loaded (m : M)

/-- A module handed back: one of the list, or the library module made without an import tree. -/
inductive ModuleRef where
  | index (i : Nat)
  | fresh
  deriving DecidableEq, Repr

/-- The locals of `ProcessLibraryBin`'s loop over the blob's entries. -/
structure BinState (M : Type) where
  modules : List (LibModule M)
  importTreeRowPtr : List UInt64
  importTreeChildIndices : List UInt64
  numDsoModule : Nat
  dsoCtx : Option Nat

/-- What `ProcessLibraryBin` builds: the modules, their imports, the root and the DSO context. -/
structure LibraryBin (M : Type) where
  modules : List (LibModule M)
  imports : List (List Nat)
  root : ModuleRef
  dsoCtx : Option ModuleRef

section Process

-- the loaders `runtime.module.loadbinary_<tkey>`, each reading its own record from the stream
variable {M : Type} (loaders : Bytes → Option (LibLoad M))

def loadModuleFromBinary (tkey : Bytes) : LibLoad M :=
  match loaders tkey with
  | some load => load
  | none => throw (.fatal ("Binary was created using \x7b" ++ textOf tkey ++
      "\x7d but a loader of that name is not registered." ++
      "Perhaps you need to recompile with this runtime enabled."))

def readEntry (st : BinState M) : LibLoad (BinState M) := do
  let (ok, tkey) ← liftLoad readString
  check ok "stream->Read(&tkey)"
  if textOf tkey = "_lib" then
    let st := { st with dsoCtx := some st.modules.length, numDsoModule := st.numDsoModule + 1,
                        modules := st.modules ++ [.dso] }
    unless st.numDsoModule = 1 do
      throw (.checkFailed "num_dso_module == 1U"
        "Multiple dso module detected, please upgrade tvm  to the latest before exporting the module")
    pure st
  else if textOf tkey = "_import_tree" then
    let (ok, rowPtr) ← liftLoad (readVector readU64)
    check ok "stream->Read(&import_tree_row_ptr)"
    let (ok, childIndices) ← liftLoad (readVector readU64)
    check ok "stream->Read(&import_tree_child_indices)"
    pure { st with importTreeRowPtr := rowPtr, importTreeChildIndices := childIndices }
  else
    let m ← loadModuleFromBinary loaders tkey
    pure { st with modules := st.modules ++ [.loaded m] }

def readEntries : Nat → BinState M → LibLoad (BinState M)
  | 0, st => pure st
  | n + 1, st => do readEntries n (← readEntry loaders st)

/-- `ProcessLibraryBin` up to the import tree: the entry count, then the entries. -/
def readLibraryBin : LibLoad (BinState M) := do
  let (ok, size) ← liftLoad readU64
  check ok "stream->Read(&size)"
  readEntries loaders size.toNat ⟨[], [], [], 0, none⟩

end Process

/-- The imports of module `i`: the child indices from `import_tree_row_ptr[i]` to the next row. -/
def moduleImports {M : Type} (st : BinState M) (i : Nat) : Except LibError (List Nat) := do
  let lo ← vectorAt (.outOfBounds "import_tree_row_ptr") st.importTreeRowPtr i
  let hi ← vectorAt (.outOfBounds "import_tree_row_ptr") st.importTreeRowPtr (i + 1)
  (List.range' lo.toNat (hi.toNat - lo.toNat)).mapM fun j => do
    let child ← vectorAt (.outOfBounds "import_tree_child_indices") st.importTreeChildIndices j
    unless child.toNat < st.modules.length do throw (.checkFailed "child_index < modules.size()" "")
    pure child.toNat

/-- `ProcessLibraryBin`, on the `nbytes` bytes after the 8-byte length `nbytes`. -/
def processLibraryBin {M : Type} (loaders : Bytes → Option (LibLoad M)) (blob : Bytes) :
    Except LibError (LibraryBin M) := do
  let st ← (readLibraryBin loaders).run' ((blob.drop 8).take (decodeLE (blob.take 8)))
  if st.importTreeRowPtr.isEmpty then
    pure ⟨st.modules, st.modules.map fun _ => [], .fresh, some .fresh⟩
  else
    let imports ← (List.range st.modules.length).mapM (moduleImports st)
    unless !st.modules.isEmpty do
      throw (.checkFailed "!modules.empty()" "modules cannot be empty when import tree is present")
    pure ⟨st.modules, imports, .index 0, st.dsoCtx.map .index⟩

section Imports

variable {M : Type} (st : BinState M)

theorem moduleImports_of_flat {i : Nat} (hi : i + 1 < st.importTreeRowPtr.length)
    (hflat : st.importTreeRowPtr[i + 1].toNat ≤ st.importTreeRowPtr[i].toNat) :
    moduleImports st i = .ok [] := by
  simp only [moduleImports, vectorAt, Nat.lt_of_succ_lt hi, hi, dif_pos, except_ok_bind,
    Nat.sub_eq_zero_of_le hflat, List.range'_zero, List.mapM_nil]
  rfl

theorem moduleImports_last {i : Nat} (hi : i + 1 = st.importTreeRowPtr.length) :
    moduleImports st i = .error (.outOfBounds "import_tree_row_ptr" (i + 1)) := by
  rw [moduleImports, vectorAt_of_le (show st.importTreeRowPtr.length ≤ i + 1 by omega)]
  simp only [vectorAt, show i < st.importTreeRowPtr.length by omega, dif_pos, except_ok_bind,
    except_error_bind]

/-- Nothing checks the row pointer's length: one that never increases is read past its end. -/
theorem mapM_moduleImports_outOfBounds (hpos : 0 < st.importTreeRowPtr.length)
    (hshort : st.importTreeRowPtr.length ≤ st.modules.length)
    (hflat : ∀ i (hi : i + 1 < st.importTreeRowPtr.length),
      st.importTreeRowPtr[i + 1].toNat ≤ st.importTreeRowPtr[i].toNat) :
    (List.range st.modules.length).mapM (moduleImports st) =
      .error (.outOfBounds "import_tree_row_ptr" st.importTreeRowPtr.length) := by
  have hlast := moduleImports_last st (show st.importTreeRowPtr.length - 1 + 1 = _ by omega)
  rw [show st.importTreeRowPtr.length - 1 + 1 = st.importTreeRowPtr.length by omega] at hlast
  exact mapM_range_error (fun i hi => ⟨[], moduleImports_of_flat st (by omega) (hflat i (by omega))⟩)
    hlast (by omega)

end Imports

def libKey : Bytes := [95, 108, 105, 98]

def importTreeKey : Bytes := [95, 105, 109, 112, 111, 114, 116, 95, 116, 114, 101, 101]

def importTreeBlob : Bytes :=
  encodeLE 8 64 ++ writeU64 2 ++ writeString libKey ++ writeString importTreeKey ++
    writeVector writeU64 [0] ++ writeVector writeU64 []

/-- Nothing checks the length of `import_tree_row_ptr`: on `importTreeBlob` it reads entry `[1]`. -/
theorem processLibraryBin_rowPtr_outOfBounds {M : Type} (loaders : Bytes → Option (LibLoad M)) :
    processLibraryBin loaders importTreeBlob = .error (.outOfBounds "import_tree_row_ptr" 1) := by
  have hst : (readLibraryBin loaders).run'
      ((importTreeBlob.drop 8).take (decodeLE (importTreeBlob.take 8))) =
        .ok ⟨[.dso], [0], [], 1, some 0⟩ := rfl
  rw [processLibraryBin, hst, except_ok_bind]
  simp only [List.isEmpty_cons, Bool.false_eq_true, if_false]
  rw [mapM_moduleImports_outOfBounds ⟨[.dso], [0], [], 1, some 0⟩ Nat.one_pos (Nat.le_refl _)
    fun i hi => absurd hi (by simp), except_error_bind]
  rfl

end Tvm.Runtime
