import Tvm.SEqual.Simulation

namespace Tvm.SEqual

variable {O : Type} [DecidableEq O]

omit [DecidableEq O] in
@[simp] theorem checkResult_true (cfg : Config) (paths : Option ObjectPathPair) (s : Handler O) :
    checkResult cfg true paths s = .ok (true, s) := by
  simp [checkResult]

theorem equal_of_not_allowPushToStack (R : Registry O) (cfg : Config) (fuel : Nat) (s : Handler O)
    (hs : s.allowPushToStack = false) {l r : O} (ht : R.typeIndex l = R.typeIndex r) (mfv : Bool) :
    equal R cfg fuel s (.obj l) (.obj r) mfv = .fatal (.icheck "allow_push_to_stack_") := by
  simp [equal, ht, sequalReduce, sequalReduceRun, mapResult, hs]

def valueRegistry : Registry Nat where
  typeIndex _ := 0
  reduce _ l r := [.prim (l == r) none]

/-- After a reducer's false, the handler fails `ICHECK(allow_push_to_stack_)` on `Equal(1, 1)`. -/
theorem equal_reused_after_reducer_false :
    ∃ s, equal valueRegistry ⟨false, false, false⟩ 2 .init (.obj 1) (.obj 2) false = .stop false s ∧
      (∀ fuel, equal valueRegistry ⟨false, false, false⟩ fuel s (.obj 1) (.obj 1) false =
        .fatal (.icheck "allow_push_to_stack_")) ∧
      ∃ s', equal valueRegistry ⟨false, false, false⟩ 3 .init (.obj 1) (.obj 1) false = .stop true s' :=
  ⟨_, rfl, fun fuel => equal_of_not_allowPushToStack valueRegistry _ fuel _ rfl rfl false, _, rfl⟩

theorem exists_eagerEqual {R : Registry O} {rank : O → Nat} (hR : Ranked R rank)
    (lhs rhs : Any O) (mfv : Bool) : ∃ n b st', eagerEqual R n lhs rhs mfv = some (b, st') := by
  rcases lhs with _ | l <;> rcases rhs with _ | r
  · exact ⟨0, _, _, rfl⟩
  · exact ⟨0, _, _, rfl⟩
  · exact ⟨0, _, _, rfl⟩
  · obtain ⟨⟨b, st'⟩, h⟩ := Option.isSome_iff_exists.1 (eagerEqual_obj_isSome hR l r mfv)
    exact ⟨_, b, st', h⟩

/-- A handler reused after calls that returned true answers as a fresh one does. -/
theorem equal_reused_as_fresh (R : Registry O) {rank : O → Nat} (hR : Ranked R rank)
    {cfg : Config} (hA : cfg.assertMode = false) (s : Handler O) (hs : s.allowPushToStack = true)
    (lhs rhs : Any O) (mfv : Bool) :
    ∃ b fuel₀ s₀, equal R cfg fuel₀ .init lhs rhs mfv = .stop b s₀ ∧
      ∃ fuel s', equal R cfg fuel s lhs rhs mfv = .stop b s' ∧
        (b = true → s'.allowPushToStack = true ∧ s'.invoked = s.invoked ++ s₀.invoked ∧
          s'.equalMapLhs = s₀.equalMapLhs ∧ s'.equalMapRhs = s₀.equalMapRhs) := by
  obtain ⟨n, b, st', h⟩ := exists_eagerEqual hR lhs rhs mfv
  obtain ⟨fuel₀, s₀, h₀, -, hfresh⟩ := equal_of_eagerEqual R hA hR .init rfl rfl h
  obtain ⟨fuel, s', h₁, -, hreused⟩ := equal_of_eagerEqual_after R hA hR s hs h
  refine ⟨b, fuel₀, s₀, h₀, fuel, s', h₁, fun hb => ?_⟩
  obtain ⟨hi, hl, hr⟩ := hfresh hb
  have hready := hreused hb
  exact ⟨hready.allowPushToStack, hready.invoked.trans (by rw [hi]; rfl),
    hready.equalMapLhs.trans hl.symm, hready.equalMapRhs.trans hr.symm⟩

theorem equal_reused_as_fresh_chain :
    Ranked chainRegistry id ∧ (⟨false, false, false⟩ : Config).assertMode = false ∧
    ∃ s, equal chainRegistry ⟨false, false, false⟩ 10 .init (.obj 1) (.obj 1) false = .stop true s ∧
      s.allowPushToStack = true ∧
      ∃ b fuel₀ s₀, equal chainRegistry ⟨false, false, false⟩ fuel₀ .init (.obj 2) (.obj 2) false =
          .stop b s₀ ∧
        ∃ fuel s', equal chainRegistry ⟨false, false, false⟩ fuel s (.obj 2) (.obj 2) false =
            .stop b s' ∧
          (b = true → s'.allowPushToStack = true ∧ s'.invoked = s.invoked ++ s₀.invoked ∧
            s'.equalMapLhs = s₀.equalMapLhs ∧ s'.equalMapRhs = s₀.equalMapRhs) :=
  ⟨chainRegistry_ranked, rfl, _, rfl, rfl,
    equal_reused_as_fresh chainRegistry chainRegistry_ranked rfl _ rfl (.obj 2) (.obj 2) false⟩

end Tvm.SEqual
