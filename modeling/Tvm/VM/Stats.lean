import Tvm.VM.Disassembly

namespace Tvm.VM

/-- A `std::ostringstream`: its buffer, its put position, and whether a seek has failed. -/
structure OStream where
  buf : List Char
  pos : Nat
  failed : Bool
  pos_le : pos ≤ buf.length

namespace OStream

def empty : OStream := ⟨[], 0, false, le_rfl⟩

/-- `os << text`: writes over the buffer from the put position, and past its end. -/
def put (os : OStream) (text : String) : OStream :=
  if os.failed then os
  else ⟨os.buf.take os.pos ++ text.toList ++ os.buf.drop (os.pos + text.toList.length),
    os.pos + text.toList.length, false, by
      rw [List.length_append, List.length_append, List.length_take, Nat.min_eq_left os.pos_le]
      exact Nat.le_add_right _ _⟩

/-- `seekp(-n, std::ios_base::cur)`: a seek before the start fails and turns later output off. -/
def seekBack (os : OStream) (n : Nat) : OStream :=
  if os.failed then os
  else if n ≤ os.pos then ⟨os.buf, os.pos - n, false, Nat.le_trans (Nat.sub_le _ _) os.pos_le⟩
  else { os with failed := true }

def str (os : OStream) : String := String.mk os.buf

def atEnd (l : List Char) : OStream := ⟨l, l.length, false, le_rfl⟩

theorem empty_eq_atEnd : empty = atEnd [] := rfl

theorem put_put (os : OStream) (t u : String) : (os.put t).put u = os.put (t ++ u) := by
  obtain ⟨buf, p, failed, hp⟩ := os
  cases failed
  · have hA : (buf.take p ++ t.toList).length = p + t.toList.length := by
      simp [List.length_take_of_le hp]
    have happ : (t ++ u).toList = t.toList ++ u.toList := rfl
    simp only [put, Bool.false_eq_true, if_false, mk.injEq, and_true, happ, List.length_append]
    refine ⟨?_, by omega⟩
    rw [List.take_left' hA, show p + t.toList.length + u.toList.length =
      (buf.take p ++ t.toList).length + u.toList.length by rw [hA], List.drop_append,
      List.drop_drop, Nat.add_assoc]
    simp only [List.append_assoc]
  · rfl

@[simp] theorem put_atEnd (l : List Char) (text : String) :
    (atEnd l).put text = atEnd (l ++ text.toList) := by
  simp [put, atEnd]

theorem put_seekBack_atEnd (l : List Char) (a b : Char) {text : String}
    (ht : 2 ≤ text.toList.length) :
    ((atEnd (l ++ [a, b])).seekBack 2).put text = atEnd (l ++ text.toList) := by
  simp only [atEnd, seekBack, put, List.length_append, List.length_cons, List.length_nil,
    Nat.le_add_left, if_true, Bool.false_eq_true, if_false, Nat.add_sub_cancel, mk.injEq,
    List.take_left, and_true]
  rw [List.drop_eq_nil_of_le (by simp only [List.length_append, List.length_cons, List.length_nil]; omega),
    List.append_nil]

end OStream

/-- What `Stats` prints through code it does not define: a `DataType` and a type key. -/
structure StatsText where
  dataTypeText : DLDataType → String
  floatTypeKey : String

section Stats

variable (p : StatsText)

/-- How `Stats` prints dimensions: the opening, each dimension then `, `, two back, then `], `. -/
def putDims (os : OStream) (openText : String) (dims : List UInt64) : OStream :=
  ((dims.foldl (fun os s => (os.put (toString (signed s))).put ", ") (os.put openText)).seekBack
    2).put "], "

/-- One iteration of the constant loop of `Stats`: there is no branch for a `Float64`. -/
def statsConstant (os : OStream) : Constant → Except String OStream
  | .ndarray t => pure (if t.shape.isEmpty then os.put "scalar, " else putDims os "[" t.shape)
  | .shape dims => pure (putDims os "shapetuple[" dims)
  | .str s => pure (((os.put "\"").put (textOf s)).put "\", ")
  | .int v => pure ((os.put (toString (signed v))).put ", ")
  | .dataType t => pure ((os.put (p.dataTypeText t)).put ", ")
  | .float _ => throw ("Unsupported constant pool type " ++ p.floatTypeKey)

/-- `Stats` up to its constant loop: the title line and the opening of the constant list. -/
def statsHeader (e : VMExecutable) : OStream :=
  ((((OStream.empty.put "Relax VM executable statistics:").put "\n").put "  Constant pool (# ").put
    (toString e.constants.length)).put "): ["

/-- `Stats` after its constant loop, trimming the lists that are not empty. -/
def statsFooter (e : VMExecutable) (os : OStream) : OStream :=
  let os := if e.constants.isEmpty then os else os.seekBack 2
  let os := (os.put "]").put "\n"
  let os := ((os.put "  Globals (#").put (toString e.funcTable.length)).put "): ["
  let os := e.funcTable.foldl (fun os f => (os.put (textOf f.name)).put ", ") os
  let os := if e.funcMap.isEmpty then os else os.seekBack 2
  (os.put "]").put "\n"

def stats (e : VMExecutable) : Except String String := do
  let os ← e.constants.foldlM (statsConstant p) (statsHeader e)
  pure (statsFooter e os).str

theorem statsConstant_ok {c : Constant} (hc : ∀ v, c ≠ .float v) (os : OStream) :
    ∃ os', statsConstant p os c = .ok os' := by
  cases c with
  | float v => exact absurd rfl (hc v)
  | _ => exact ⟨_, rfl⟩

theorem foldlM_statsConstant_of_float {cs : List Constant} {v : UInt64}
    (h : Constant.float v ∈ cs) (os : OStream) :
    cs.foldlM (statsConstant p) os = .error ("Unsupported constant pool type " ++ p.floatTypeKey) := by
  induction cs generalizing os with
  | nil => cases h
  | cons c cs ih =>
    rw [List.foldlM_cons]
    by_cases hc : ∀ w, c ≠ .float w
    · obtain ⟨os', hos'⟩ := statsConstant_ok p hc os
      rw [hos', except_ok_bind]
      exact ih ((List.mem_cons.1 h).resolve_left fun h' => hc v h'.symm) os'
    · obtain ⟨w, rfl⟩ := not_forall_not.1 hc
      rfl

theorem foldlM_statsConstant_ok {cs : List Constant} (h : ∀ v, Constant.float v ∉ cs)
    (os : OStream) : ∃ os', cs.foldlM (statsConstant p) os = .ok os' := by
  induction cs generalizing os with
  | nil => exact ⟨os, rfl⟩
  | cons c cs ih =>
    obtain ⟨os', hos'⟩ :=
      statsConstant_ok p (fun v hv => h v (List.mem_cons.2 (.inl hv.symm))) os
    rw [List.foldlM_cons, hos', except_ok_bind]
    exact ih (fun v hv => h v (List.mem_cons_of_mem _ hv)) os'

/-- `Stats` completes exactly when no constant is a `Float64`, for which it has no branch. -/
theorem stats_ok_iff (e : VMExecutable) :
    (∃ s, stats p e = .ok s) ↔ ∀ v, Constant.float v ∉ e.constants := by
  constructor
  · rintro ⟨s, hs⟩ v hv
    rw [stats, foldlM_statsConstant_of_float p hv, except_error_bind] at hs
    cases hs
  · intro h
    obtain ⟨os', hos'⟩ := foldlM_statsConstant_ok p h (statsHeader e)
    exact ⟨_, by rw [stats, hos']; rfl⟩

theorem foldl_putDim_atEnd (l : List Char) (dims : List UInt64) :
    dims.foldl (fun os s => (os.put (toString (signed s))).put ", ") (OStream.atEnd l) =
      OStream.atEnd (l ++ dims.flatMap fun s => (toString (signed s)).toList ++ ", ".toList) := by
  induction dims generalizing l with
  | nil => simp
  | cons d ds ih => simp [ih, List.append_assoc]

theorem flatMap_sep_shift {α : Type} (f : α → List Char) (sep : List Char) (d : α) (ds : List α) :
    f d ++ sep ++ ds.flatMap (fun s => f s ++ sep) =
      f d ++ ds.flatMap (fun s => sep ++ f s) ++ sep := by
  induction ds generalizing d with
  | nil => simp
  | cons s ss ih => simp [List.append_assoc, ← ih s]

theorem putDims_cons (l : List Char) (openText : String) (d : UInt64) (ds : List UInt64) :
    putDims (OStream.atEnd l) openText (d :: ds) =
      OStream.atEnd (l ++ openText.toList ++ (toString (signed d)).toList ++
        ds.flatMap (fun s => ", ".toList ++ (toString (signed s)).toList) ++ "], ".toList) := by
  have hbuf : l ++ openText.toList ++
      (d :: ds).flatMap (fun s => (toString (signed s)).toList ++ ", ".toList) =
      (l ++ openText.toList ++ (toString (signed d)).toList ++
        ds.flatMap (fun s => ", ".toList ++ (toString (signed s)).toList)) ++ [',', ' '] := by
    have hshift := flatMap_sep_shift (fun s => (toString (signed s)).toList) ", ".toList d ds
    simp only [List.flatMap_cons, List.append_assoc] at hshift ⊢
    rw [hshift]
    rfl
  rw [putDims, OStream.put_atEnd, foldl_putDim_atEnd, hbuf,
    OStream.put_seekBack_atEnd _ _ _ (by decide)]

theorem putDims_nil_shape (l : List Char) :
    putDims (OStream.atEnd l) "shapetuple[" [] = OStream.atEnd (l ++ "shapetupl], ".toList) := by
  have hbuf : l ++ "shapetuple[".toList = (l ++ "shapetupl".toList) ++ ['e', '['] := by
    simp only [List.append_assoc]
    rfl
  rw [putDims, OStream.put_atEnd, List.foldl_nil, hbuf,
    OStream.put_seekBack_atEnd _ _ _ (by decide), List.append_assoc]
  rfl

end Stats

set_option maxRecDepth 4000 in
/-- Loaded, `Stats` stops at `[Float64 0]` and prints the pool `[Shape []]` as `[shapetupl]]`. -/
theorem stats_loadFromBinary (p : StatsText) (tags : TypeIndex) :
    (∃ e, (loadFromBinary tags [48, 46, 49]).run
        (saveToBinary tags [48, 46, 49] ⟨[.float 0], [], [], [], []⟩) = .ok (e, []) ∧
      stats p e = .error ("Unsupported constant pool type " ++ p.floatTypeKey)) ∧
    ∃ e, (loadFromBinary tags [48, 46, 49]).run
        (saveToBinary tags [48, 46, 49] ⟨[.shape []], [], [], [], []⟩) = .ok (e, []) ∧
      stats p e =
        .ok "Relax VM executable statistics:\n  Constant pool (# 1): [shapetupl]]\n  Globals (#0): []\n" := by
  constructor
  · have hload := loadFromBinary_saveToBinary_append tags [48, 46, 49]
      ⟨[.float 0], [], [], [], []⟩ (by simp [saveSections, saveHeader, saveGlobalSection,
        saveConstantSection, saveConstant, saveCodeSection]) []
    exact ⟨_, hload, rfl⟩
  · have hload := loadFromBinary_saveToBinary_append tags [48, 46, 49]
      ⟨[.shape []], [], [], [], []⟩ (by simp [saveSections, saveHeader, saveGlobalSection,
        saveConstantSection, saveConstant, saveCodeSection, writeSizeT]) []
    exact ⟨_, hload, rfl⟩

end Tvm.VM
