import Tvm.SEqual.Invariants

namespace Tvm.SEqual

variable {O : Type} [DecidableEq O]

section Records

variable (R : Registry O) (cfg : Config) (mfv : Bool) (cur : ObjectPathPair)

omit [DecidableEq O] in
theorem recordMismatch_of_none {s : Handler O} (hs : s.firstMismatch = none) (p : ObjectPathPair) :
    s.recordMismatch p = { s with firstMismatch := some p } := by
  simp [Handler.recordMismatch, hs]

theorem runCheck_compareAttributeValues {s : Handler O} (hs : s.firstMismatch = none)
    (lhsKey rhsKey : Option String) :
    runCheck R cfg mfv (some cur) s (compareAttributeValues false lhsKey rhsKey none) =
      .ok (false,
        { s with firstMismatch := some ⟨cur.lhsPath.attr lhsKey, cur.rhsPath.attr rhsKey⟩ }) := by
  simp [runCheck, compareAttributeValues, PathSource.resolve, recordMismatch_of_none hs]

theorem runCheck_enumAttrsEqual {s : Handler O} (hs : s.firstMismatch = none)
    (lhsKey rhsKey : Option String) :
    runCheck R cfg mfv (some cur) s (enumAttrsEqual false lhsKey rhsKey none) =
      .ok (false,
        { s with firstMismatch := some ⟨cur.lhsPath ++ [.missing], cur.rhsPath ++ [.missing]⟩ }) := by
  simp [runCheck, enumAttrsEqual, PathSource.resolve, ObjectPath.attr, recordMismatch_of_none hs]

end Records

/-- One node type whose enum attribute `kind` is compared by `EnumAttrsEqual`. -/
def enumRegistry : Registry Nat where
  typeIndex _ := 0
  reduce _ l r := [enumAttrsEqual (decide (l = r)) (some "kind") (some "kind") none]

/-- A mismatch in an enum attribute records `Missing` after the root paths, not `Attr(kind)`. -/
theorem equal_enumAttr_records_missing :
    ∃ s, equal enumRegistry ⟨false, true, true⟩ 1 .init (.obj 1) (.obj 2) false = .stop false s ∧
      s.firstMismatch = some ⟨[.missing], [.missing]⟩ ∧
      s.firstMismatch ≠ some ⟨[.attr "kind"], [.attr "kind"]⟩ :=
  ⟨_, rfl, rfl, by decide⟩

end Tvm.SEqual
