import Tvm.Runtime.LibraryModule

namespace Tvm.Runtime

open Tvm.VM (Bytes encodeLE decodeLE writeU64 writeString writeVector)

def LibModule.isDso {M : Type} : LibModule M → Bool
  | .dso => true
  | .loaded _ => false

/-- `CreateModuleFromLibrary`: the blob `ProcessLibraryBin` reads, or the library's own module. -/
def createModuleFromLibrary {M : Type} (loaders : Bytes → Option (LibLoad M))
    (libraryBin : Option Bytes) : Except LibError (LibraryBin M) :=
  match libraryBin with
  | some blob => processLibraryBin loaders blob
  | none => pure ⟨[], [], .fresh, some .fresh⟩

section Entries

variable {M : Type} (loaders : Bytes → Option (LibLoad M))

theorem libLoad_bind_ok {α β : Type} {x : LibLoad α} {f : α → LibLoad β} {s : Bytes}
    {b : β × Bytes} (h : (x >>= f).run s = .ok b) :
    ∃ a s', x.run s = .ok (a, s') ∧ (f a).run s' = .ok b := by
  rw [StateT.run_bind] at h
  obtain ⟨⟨a, s'⟩, ha, hf⟩ := except_bind_eq_ok h
  exact ⟨a, s', ha, hf⟩

theorem check_bind_ok {β : Type} {c : Bool} {t : String} {f : Unit → LibLoad β} {s : Bytes}
    {b : β × Bytes} (h : (check c t >>= f).run s = .ok b) : c = true ∧ (f ()).run s = .ok b := by
  cases c
  · cases h
  · exact ⟨rfl, h⟩

theorem readEntry_cases {st st' : BinState M} {s s' : Bytes}
    (h : (readEntry loaders st).run s = .ok (st', s')) :
    (st.numDsoModule = 0 ∧
      st' = { st with dsoCtx := some st.modules.length, numDsoModule := st.numDsoModule + 1,
                      modules := st.modules ++ [.dso] }) ∨
    (∃ rowPtr childIndices,
      st' = { st with importTreeRowPtr := rowPtr, importTreeChildIndices := childIndices }) ∨
    (∃ m, st' = { st with modules := st.modules ++ [.loaded m] }) := by
  obtain ⟨⟨ok, tkey⟩, s1, -, h⟩ := libLoad_bind_ok h
  obtain ⟨-, h⟩ := check_bind_ok h
  split at h
  · dsimp only at h
    split at h
    · cases h
      exact .inl ⟨by omega, rfl⟩
    · cases h
  · split at h
    · obtain ⟨⟨ok, rowPtr⟩, s3, -, h⟩ := libLoad_bind_ok h
      obtain ⟨-, h⟩ := check_bind_ok h
      obtain ⟨⟨ok, childIndices⟩, s5, -, h⟩ := libLoad_bind_ok h
      obtain ⟨-, h⟩ := check_bind_ok h
      cases h
      exact .inr (.inl ⟨rowPtr, childIndices, rfl⟩)
    · obtain ⟨m, s3, -, h⟩ := libLoad_bind_ok h
      cases h
      exact .inr (.inr ⟨m, rfl⟩)

/-- The entry loop's DSO bookkeeping: at most one DSO module, counted, and `*dso_ctx_addr` on it. -/
structure BinState.DsoTracked (st : BinState M) : Prop where
  count : st.modules.countP LibModule.isDso = st.numDsoModule
  atMostOne : st.numDsoModule ≤ 1
  ctx : st.dsoCtx = st.modules.findIdx? LibModule.isDso

theorem BinState.DsoTracked.init : (⟨[], [], [], 0, none⟩ : BinState M).DsoTracked :=
  ⟨rfl, Nat.zero_le 1, rfl⟩

theorem BinState.DsoTracked.readEntry {st st' : BinState M} {s s' : Bytes}
    (hst : st.DsoTracked) (h : (Runtime.readEntry loaders st).run s = .ok (st', s')) :
    st'.DsoTracked := by
  rcases readEntry_cases loaders h with ⟨h0, rfl⟩ | ⟨_, _, rfl⟩ | ⟨m, rfl⟩
  · have hnone : st.modules.findIdx? LibModule.isDso = none := by
      rw [List.findIdx?_eq_none_iff]
      simpa [h0] using hst.count
    exact ⟨by simp [hst.count, LibModule.isDso], by dsimp only; omega,
      by simp [hnone, LibModule.isDso]⟩
  · exact ⟨hst.count, hst.atMostOne, hst.ctx⟩
  · exact ⟨by simp [hst.count, LibModule.isDso], hst.atMostOne, by simp [hst.ctx, LibModule.isDso]⟩

theorem BinState.DsoTracked.readEntries : ∀ (n : Nat) {st st' : BinState M} {s s' : Bytes},
    st.DsoTracked → (Runtime.readEntries loaders n st).run s = .ok (st', s') → st'.DsoTracked
  | 0, _, _, _, _, hst, h => by cases h; exact hst
  | n + 1, _, _, _, _, hst, h => by
    obtain ⟨st1, s1, h1, h⟩ := libLoad_bind_ok h
    exact readEntries n (hst.readEntry loaders h1) h

theorem readLibraryBin_dsoTracked {st : BinState M} {s s' : Bytes}
    (h : (readLibraryBin loaders).run s = .ok (st, s')) : st.DsoTracked := by
  obtain ⟨⟨ok, size⟩, s1, -, h⟩ := libLoad_bind_ok h
  obtain ⟨-, h⟩ := check_bind_ok h
  exact BinState.DsoTracked.readEntries loaders _ BinState.DsoTracked.init h

/-- A module tree has one DSO module at most, and the DSO context is the library or its `_lib`. -/
theorem createModuleFromLibrary_dsoCtx (libraryBin : Option Bytes) {res : LibraryBin M}
    (h : createModuleFromLibrary loaders libraryBin = .ok res) :
    res.modules.countP LibModule.isDso ≤ 1 ∧
      (res.root = .fresh ∧ res.dsoCtx = some .fresh ∨
        res.root = .index 0 ∧ res.dsoCtx = (res.modules.findIdx? LibModule.isDso).map .index) := by
  cases libraryBin with
  | none => cases h; exact ⟨Nat.zero_le 1, .inl ⟨rfl, rfl⟩⟩
  | some blob =>
    obtain ⟨st, hst, h⟩ := except_bind_eq_ok h
    obtain ⟨s', hrun⟩ := stateT_run'_ok hst
    have ht := readLibraryBin_dsoTracked loaders hrun
    have hcount : st.modules.countP LibModule.isDso ≤ 1 := ht.count ▸ ht.atMostOne
    split at h
    · cases h
      exact ⟨hcount, .inl ⟨rfl, rfl⟩⟩
    · obtain ⟨imports, -, h⟩ := except_bind_eq_ok h
      split at h
      · cases h
        exact ⟨hcount, .inr ⟨rfl, by rw [ht.ctx]⟩⟩
      · cases h

end Entries

section ImportTree

variable {M : Type} (st : BinState M)

/-- The positions of `import_tree_child_indices` the import loop reads for module `i`. -/
def BinState.rowRange (i : Nat) : List Nat :=
  List.range' (st.importTreeRowPtr.getD i 0).toNat
    ((st.importTreeRowPtr.getD (i + 1) 0).toNat - (st.importTreeRowPtr.getD i 0).toNat)

def BinState.rowSlice (i : Nat) : List Nat :=
  (st.rowRange i).map fun j => (st.importTreeChildIndices.getD j 0).toNat

/-- Row `i` can be read: the row pointer has its end, and its child indices name listed modules. -/
def BinState.RowFits (i : Nat) : Prop :=
  i + 1 < st.importTreeRowPtr.length ∧ ∀ j ∈ st.rowRange i,
    j < st.importTreeChildIndices.length ∧
      (st.importTreeChildIndices.getD j 0).toNat < st.modules.length

instance (i : Nat) : Decidable (st.RowFits i) :=
  inferInstanceAs (Decidable (_ ∧ ∀ j ∈ st.rowRange i, _))

theorem moduleImports_ok_iff (i : Nat) (l : List Nat) :
    moduleImports st i = .ok l ↔ st.RowFits i ∧ l = st.rowSlice i := by
  by_cases hi : i + 1 < st.importTreeRowPtr.length
  · simp only [moduleImports, vectorAt, dif_pos (Nat.lt_of_succ_lt hi), dif_pos hi, except_ok_bind]
    rw [@mapM_ok_iff _ _ _ _ (fun j => j < st.importTreeChildIndices.length ∧
      (st.importTreeChildIndices.getD j 0).toNat < st.modules.length)
      (fun j => (st.importTreeChildIndices.getD j 0).toNat) (fun j c => ?_)]
    · have h0 := Nat.lt_of_succ_lt hi
      simp [BinState.RowFits, BinState.rowSlice, BinState.rowRange, hi, h0, List.getElem?_eq_getElem]
    · by_cases hj : j < st.importTreeChildIndices.length
      · by_cases hc : st.importTreeChildIndices[j].toNat < st.modules.length <;>
          simp [hj, hc, List.getElem?_eq_getElem, eq_comm]
      · simp [hj]
  · have hne : moduleImports st i ≠ .ok l := by
      unfold moduleImports
      by_cases h0 : i < st.importTreeRowPtr.length
      · simp [vectorAt, h0, hi]
      · simp [vectorAt, h0]
    simp only [hne, false_iff, BinState.RowFits, hi, false_and, not_false_eq_true]

theorem importLoop_ok_iff (n : Nat) (imports : List (List Nat)) :
    (List.range n).mapM (moduleImports st) = .ok imports ↔
      (∀ i < n, st.RowFits i) ∧ imports = (List.range n).map st.rowSlice := by
  simp only [mapM_ok_iff (moduleImports_ok_iff st), List.mem_range]

/-- With an import tree `ProcessLibraryBin` succeeds exactly when every row fits, as it imports. -/
theorem processLibraryBin_importTree (loaders : Bytes → Option (LibLoad M)) (blob : Bytes)
    (hst : (readLibraryBin loaders).run' ((blob.drop 8).take (decodeLE (blob.take 8))) = .ok st)
    (htree : st.importTreeRowPtr ≠ []) (res : LibraryBin M) :
    processLibraryBin loaders blob = .ok res ↔
      st.modules ≠ [] ∧ (∀ i < st.modules.length, st.RowFits i) ∧
        res = ⟨st.modules, (List.range st.modules.length).map st.rowSlice, .index 0,
          st.dsoCtx.map .index⟩ := by
  rw [processLibraryBin, hst, except_ok_bind]
  simp only [List.isEmpty_iff, htree, if_false]
  cases hloop : (List.range st.modules.length).mapM (moduleImports st) with
  | error e =>
    refine ⟨fun h => (by cases h), fun ⟨_, hfits, _⟩ => ?_⟩
    rw [(importLoop_ok_iff st _ _).2 ⟨hfits, rfl⟩] at hloop
    cases hloop
  | ok imports =>
    obtain ⟨hfits, rfl⟩ := (importLoop_ok_iff st _ _).1 hloop
    by_cases hm : st.modules = []
    · simp only [hm, except_ok_bind, List.isEmpty_nil, Bool.not_true, Bool.false_eq_true, if_false,
        except_throw_bind, reduceCtorEq, ne_eq, not_true_eq_false, false_and]
    · have hne : st.modules.isEmpty = false := by simpa using hm
      simp only [hne, except_ok_bind, Bool.not_false, if_true, except_pure, Except.ok.injEq]
      exact ⟨fun h => ⟨hm, hfits, h.symm⟩, fun h => h.2.2.symm⟩

end ImportTree

def twoModuleBlob : Bytes :=
  encodeLE 8 97 ++ writeU64 3 ++ writeString libKey ++ writeString [109] ++
    writeString importTreeKey ++ writeVector writeU64 [0, 1, 1] ++ writeVector writeU64 [1]

theorem processLibraryBin_importTree_twoModules :
    (readLibraryBin fun _ => some (pure ())).run'
        ((twoModuleBlob.drop 8).take (decodeLE (twoModuleBlob.take 8))) =
      .ok ⟨[.dso, .loaded ()], [0, 1, 1], [1], 1, some 0⟩ ∧
    [0, 1, 1] ≠ ([] : List UInt64) ∧
    processLibraryBin (fun _ => some (pure ())) twoModuleBlob =
      .ok ⟨[.dso, .loaded ()], [[1], []], .index 0, some (.index 0)⟩ :=
  ⟨rfl, by decide, (processLibraryBin_importTree ⟨[.dso, .loaded ()], [0, 1, 1], [1], 1, some 0⟩
    (fun _ => some (pure ())) twoModuleBlob rfl (by decide) _).2
    ⟨List.cons_ne_nil _ _, by decide, rfl⟩⟩

theorem createModuleFromLibrary_dsoCtx_twoModules :
    createModuleFromLibrary (fun _ => some (pure ())) (some twoModuleBlob) =
      .ok ⟨[.dso, .loaded ()], [[1], []], .index 0, some (.index 0)⟩ ∧
    [LibModule.dso, .loaded ()].countP LibModule.isDso ≤ 1 ∧
      (ModuleRef.index 0 = .fresh ∧ some (ModuleRef.index 0) = some .fresh ∨
        ModuleRef.index 0 = .index 0 ∧
          some (ModuleRef.index 0) = ([LibModule.dso, .loaded ()].findIdx? LibModule.isDso).map .index) :=
  ⟨rfl, @createModuleFromLibrary_dsoCtx Unit (fun _ => some (pure ())) (some twoModuleBlob)
    ⟨[.dso, .loaded ()], [[1], []], .index 0, some (.index 0)⟩ rfl⟩

end Tvm.Runtime
