import Tvm.SEqual.Simulation

namespace Tvm.SEqual

variable {O : Type} [DecidableEq O]

section Frame

def Task.QueuedBy (cs : List (Check O)) (current : Option ObjectPathPair) : Task O → Prop
  | .forceFail _ => True
  | .reduce l r _ p expanded graphEqual => expanded = false ∧ graphEqual = false ∧
      p.isSome = current.isSome ∧ ∃ defEqual site, Check.object (some l) (some r) defEqual site ∈ cs

omit [DecidableEq O] in
theorem Task.QueuedBy.mono {cs cs' : List (Check O)} {current : Option ObjectPathPair}
    {t : Task O} (h : t.QueuedBy cs current) (hcs : cs ⊆ cs') : t.QueuedBy cs' current := by
  cases t with
  | forceFail => trivial
  | reduce =>
    obtain ⟨he, hg, hp, d, site, hc⟩ := h
    exact ⟨he, hg, hp, d, site, hcs hc⟩

def Task.markIf (g : Bool) (t : Task O) : Task O := if g then t.markGraph else t

omit [DecidableEq O] in
theorem Task.markIf_markIf (g g' : Bool) (t : Task O) :
    (t.markIf g).markIf g' = t.markIf (g || g') := by
  cases g <;> cases g' <;> simp [Task.markIf]

structure Handler.Frame (cs : List (Check O)) (current : Option ObjectPathPair) (s s' : Handler O) :
    Prop where
  equalMapLhs : s'.equalMapLhs = s.equalMapLhs
  equalMapRhs : s'.equalMapRhs = s.equalMapRhs
  allowPushToStack : s'.allowPushToStack = s.allowPushToStack
  pending : ∃ new, s'.pendingTasks = s.pendingTasks ++ new ∧ ∀ t ∈ new, t.QueuedBy cs current
  stack : ∃ g, s'.taskStack = s.taskStack.modifyHead (Task.markIf g)

namespace Handler.Frame

variable {cs cs' : List (Check O)} {current : Option ObjectPathPair} {s s₁ s₂ : Handler O}

omit [DecidableEq O] in
theorem refl (cs : List (Check O)) (current : Option ObjectPathPair) (s : Handler O) :
    s.Frame cs current s :=
  ⟨rfl, rfl, rfl, ⟨[], by simp, by simp⟩, ⟨false, by cases s.taskStack <;> rfl⟩⟩

omit [DecidableEq O] in
theorem of_firstMismatch (fm : Option ObjectPathPair) :
    s.Frame cs current { s with firstMismatch := fm } :=
  ⟨rfl, rfl, rfl, (refl cs current s).pending, (refl cs current s).stack⟩

omit [DecidableEq O] in
theorem of_invoked (inv : List (O × O × Bool)) : s.Frame cs current { s with invoked := inv } :=
  ⟨rfl, rfl, rfl, (refl cs current s).pending, (refl cs current s).stack⟩

omit [DecidableEq O] in
theorem mono (h : s.Frame cs current s₁) (hcs : cs ⊆ cs') : s.Frame cs' current s₁ :=
  let ⟨new, hnew, hq⟩ := h.pending
  ⟨h.equalMapLhs, h.equalMapRhs, h.allowPushToStack, ⟨new, hnew, fun t ht => (hq t ht).mono hcs⟩,
    h.stack⟩

omit [DecidableEq O] in
theorem trans (h₁ : s.Frame cs current s₁) (h₂ : s₁.Frame cs current s₂) : s.Frame cs current s₂ := by
  obtain ⟨new₁, hnew₁, hq₁⟩ := h₁.pending
  obtain ⟨new₂, hnew₂, hq₂⟩ := h₂.pending
  obtain ⟨g₁, hg₁⟩ := h₁.stack
  obtain ⟨g₂, hg₂⟩ := h₂.stack
  refine ⟨h₂.equalMapLhs.trans h₁.equalMapLhs, h₂.equalMapRhs.trans h₁.equalMapRhs,
    h₂.allowPushToStack.trans h₁.allowPushToStack,
    ⟨new₁ ++ new₂, by rw [hnew₂, hnew₁, List.append_assoc], fun t ht => ?_⟩, ⟨g₁ || g₂, ?_⟩⟩
  · rcases List.mem_append.1 ht with ht | ht
    exacts [hq₁ t ht, hq₂ t ht]
  · rw [hg₂, hg₁]
    cases s.taskStack <;> simp [Task.markIf_markIf]

end Handler.Frame

omit [DecidableEq O] in
theorem mem_deferFail {cfg : Config} {paths : Option ObjectPathPair} {t : Task O}
    (h : t ∈ (@deferFail O cfg paths).2) : ∃ p, t = .forceFail p := by
  unfold deferFail at h
  split at h
  · split at h
    · exact ⟨_, List.mem_singleton.1 h⟩
    · cases h
  · cases h

theorem mem_sequalReduceRun {R : Registry O} {cfg : Config} {mapLhs mapRhs : O → Option O}
    {lhs rhs : Option O} {mfv : Bool} {paths : Option ObjectPathPair} {t : Task O}
    (h : t ∈ (sequalReduceRun R cfg mapLhs mapRhs lhs rhs mfv paths).2) :
    (∃ p, t = .forceFail p) ∨
      ∃ l r, lhs = some l ∧ rhs = some r ∧ t = .reduce l r mfv paths false false := by
  unfold sequalReduceRun at h
  split at h
  · cases h
  · split at h
    · split at h
      · cases h
      · exact .inl (mem_deferFail h)
      · exact .inr ⟨_, _, rfl, rfl, List.mem_singleton.1 h⟩
    · exact .inl (mem_deferFail h)
  · exact .inl (mem_deferFail h)

omit [DecidableEq O] in
theorem checkResult_ok {cfg : Config} {b b' : Bool} {paths : Option ObjectPathPair}
    {s s' : Handler O} (h : checkResult cfg b paths s = .ok (b', s')) :
    b' = b ∧ s' = { s with firstMismatch := s'.firstMismatch } ∧
      (b = true → s'.firstMismatch = s.firstMismatch) ∧
      (cfg.tracing = true → b = false → paths.isSome → s'.firstMismatch.isSome) := by
  simp only [checkResult] at h
  split at h
  · cases h
  · obtain ⟨rfl, rfl⟩ := Except.ok.inj h |> Prod.mk.inj
    refine ⟨rfl, by split <;> rfl, fun hb => by simp [hb], fun htr hb hp => ?_⟩
    subst hb
    split
    · exact hp
    · rename_i hn
      simp only [htr, Bool.not_false, Bool.true_and, Option.isNone_iff_eq_none] at hn
      exact Option.isSome_iff_ne_none.2 hn

section Checks

variable (R : Registry O) (cfg : Config) {mfv : Bool} {current : Option ObjectPathPair}

theorem runCheck_frame {s s' : Handler O} {c : Check O} {b : Bool}
    (h : runCheck R cfg mfv current s c = .ok (b, s')) :
    s.Frame [c] current s' ∧ (b = true → s'.firstMismatch = s.firstMismatch) := by
  have hseq : ∀ {lhs rhs : Option O} {d : Bool} {site : PathSource}
      {paths : Option ObjectPathPair} {b₀ : Bool} {s₀ : Handler O},
      paths.isSome = current.isSome → c = .object lhs rhs d site →
      sequalReduce R cfg s lhs rhs (d || mfv) paths = .ok (b₀, s₀) →
      s.Frame [c] current s₀ ∧ (b₀ = true → s₀.firstMismatch = s.firstMismatch) := by
    intro lhs rhs d site paths b₀ s₀ hp hc hs
    obtain ⟨hb₀, hs₀, hslot, -⟩ := checkResult_ok hs
    refine ⟨⟨by rw [hs₀], by rw [hs₀], by rw [hs₀], ⟨_, by rw [hs₀], fun t ht => ?_⟩,
      ⟨false, by rw [hs₀]; cases s.taskStack <;> rfl⟩⟩, fun hb => hslot (hb₀ ▸ hb)⟩
    rcases mem_sequalReduceRun ht with ⟨p, rfl⟩ | ⟨l, r, rfl, rfl, rfl⟩
    · trivial
    · exact ⟨rfl, rfl, hp, d, site, hc ▸ List.mem_singleton_self _⟩
  cases c with
  | prim eq site =>
    simp only [runCheck] at h
    split at h
    · obtain ⟨rfl, rfl⟩ := Except.ok.inj h |> Prod.mk.inj
      exact ⟨.refl _ _ _, fun _ => rfl⟩
    · split at h <;> obtain ⟨rfl, rfl⟩ := Except.ok.inj h |> Prod.mk.inj
      · rw [Handler.recordMismatch_eq]
        exact ⟨.of_firstMismatch _, fun hb => nomatch hb⟩
      · exact ⟨.refl _ _ _, fun hb => nomatch hb⟩
  | object lhs rhs d site =>
    cases current with
    | none => exact hseq rfl rfl h
    | some cur =>
      simp only [runCheck] at h
      rcases hs : sequalReduce R cfg s lhs rhs (d || mfv) (some (site.resolve cur)) with
        _ | ⟨b₀, s₀⟩ <;> rw [hs] at h
      · cases h
      obtain ⟨hf, hslot⟩ := hseq (show (some (site.resolve cur)).isSome = (some cur).isSome from rfl)
        rfl hs
      simp only [except_ok_bind] at h
      split at h <;> obtain ⟨rfl, rfl⟩ := Except.ok.inj h |> Prod.mk.inj
      · exact ⟨hf, fun _ => hslot ‹_›⟩
      · rw [Handler.recordMismatch_eq]
        exact ⟨hf.trans (.of_firstMismatch _), fun hb => nomatch hb⟩
  | mark =>
    simp only [runCheck] at h
    rcases hm : markGraphNode s with _ | s₀ <;> rw [hm] at h
    · cases h
    obtain ⟨rfl, rfl⟩ := Except.ok.inj h |> Prod.mk.inj
    refine ⟨?_, fun _ => ?_⟩ <;> simp only [markGraphNode] at hm <;> split at hm
    all_goals first
      | (split at hm <;> cases hm)
      | cases hm
    · exact ⟨rfl, rfl, rfl, ⟨[], by simp, by simp⟩, ⟨true, by simp [*, Task.markIf]⟩⟩
    · rfl

theorem runChecks_frame : ∀ {cs : List (Check O)} {s s' : Handler O} {b : Bool},
    runChecks R cfg mfv current cs s = .ok (b, s') →
      s.Frame cs current s' ∧ (b = true → s'.firstMismatch = s.firstMismatch)
  | [], s, s', b, h => by
    obtain ⟨rfl, rfl⟩ := Except.ok.inj h |> Prod.mk.inj
    exact ⟨.refl _ _ _, fun _ => rfl⟩
  | c :: cs, s, s', b, h => by
    simp only [runChecks] at h
    rcases h₁ : runCheck R cfg mfv current s c with _ | ⟨b₁, s₁⟩ <;> rw [h₁] at h
    · cases h
    obtain ⟨hf₁, hm₁⟩ := runCheck_frame R cfg h₁
    have hf₁ := hf₁.mono (List.cons_subset.2 ⟨List.mem_cons_self c cs, List.nil_subset _⟩)
    simp only [except_ok_bind] at h
    cases b₁
    · obtain ⟨rfl, rfl⟩ := Except.ok.inj h |> Prod.mk.inj
      exact ⟨hf₁, fun hb => nomatch hb⟩
    · obtain ⟨hf₂, hm₂⟩ := runChecks_frame h
      exact ⟨hf₁.trans (hf₂.mono (List.subset_cons_self c cs)),
        fun hb => (hm₂ hb).trans (hm₁ rfl)⟩

theorem dispatch_frame {s s' : Handler O} {l r : O} {b : Bool} {p : Option ObjectPathPair}
    (h : dispatchSEqualReduce R cfg s l r mfv p = .ok (b, s')) :
    R.typeIndex l = R.typeIndex r ∧
      s.Frame (R.reduce mfv l r) (if cfg.tracing then p else none) s' ∧
      (b = true → mapResult s.equalMapLhs s.equalMapRhs l r ≠ some false ∧
        s'.firstMismatch = s.firstMismatch) ∧
      (cfg.tracing = true → b = false → p.isSome → s'.firstMismatch.isSome) := by
  simp only [dispatchSEqualReduce] at h
  split at h
  · cases h
  rename_i ht
  refine ⟨not_not.1 ht, ?_⟩
  simp only [pure_bind] at h
  split at h
  · rename_i b₀ hm
    obtain ⟨rfl, hs', hslot, htr⟩ := checkResult_ok h
    rw [hs']
    exact ⟨.of_firstMismatch _, fun hb => ⟨by rw [hm, hb]; simp, hslot hb⟩, htr⟩
  · rename_i hm
    obtain ⟨b₀, s₀, hs₀, hc⟩ : ∃ b₀ s₀, runChecks R cfg mfv (if cfg.tracing then p else none)
        (R.reduce mfv l r) { s with invoked := s.invoked ++ [(l, r, mfv)] } = .ok (b₀, s₀) ∧
        checkResult cfg b₀ p s₀ = .ok (b, s') := by
      split at h
      · rcases hp : p with _ | cur <;> rw [hp] at h <;> simp only at h
        · cases h
        rcases hs₀ : runChecks R cfg mfv (some cur) (R.reduce mfv l r)
            { s with invoked := s.invoked ++ [(l, r, mfv)] } with _ | ⟨b₀, s₀⟩ <;> rw [hs₀] at h
        · cases h
        exact ⟨b₀, s₀, by rwa [if_pos ‹_›], h⟩
      · rcases hs₀ : runChecks R cfg mfv none (R.reduce mfv l r)
            { s with invoked := s.invoked ++ [(l, r, mfv)] } with _ | ⟨b₀, s₀⟩ <;> rw [hs₀] at h
        · cases h
        exact ⟨b₀, s₀, by rwa [if_neg ‹_›], h⟩
    obtain ⟨hf, hslot₀⟩ := runChecks_frame R cfg hs₀
    obtain ⟨rfl, hs', hslot, htr⟩ := checkResult_ok hc
    rw [hs'] at hslot ⊢
    exact ⟨(Handler.Frame.of_invoked _).trans (hf.trans (.of_firstMismatch _)),
      fun hb => ⟨by rw [hm]; simp, (hslot hb).trans (hslot₀ hb)⟩, htr⟩

end Checks

end Frame

section Runs

variable {R : Registry O} {cfg : Config}

theorem step_next_cases {s s' : Handler O} (h : step R cfg s = .next s') :
    (∃ l r mfv p g rest, s.taskStack = .reduce l r mfv p true g :: rest ∧
      (s.equalMapLhs l = none ∨ s.equalMapLhs l = some r) ∧
      s' = { (if g then s.insertMaps l r else s) with taskStack := rest }) ∨
    (∃ l r mfv p g rest s₂, s.taskStack = .reduce l r mfv p false g :: rest ∧
      s.pendingTasks = [] ∧
      dispatchSEqualReduce R cfg
        { s with taskStack := .reduce l r mfv p true g :: rest, allowPushToStack := false }
        l r mfv p = .ok (true, s₂) ∧
      s' = { s₂ with allowPushToStack := true, taskStack := s₂.pendingTasks ++ s₂.taskStack,
                     pendingTasks := [] }) := by
  unfold step at h
  split at h
  · cases h
  · split at h <;> cases h
  · rename_i l r mfv p g rest hst
    split at h
    · cases h
    · rename_i hc
      refine .inl ⟨l, r, mfv, p, g, rest, hst, by tauto, (Step.next.inj h).symm⟩
  · rename_i l r mfv p g rest hst
    split at h
    · cases h
    · rename_i hpend
      replace hpend : s.pendingTasks = [] := by simpa using hpend
      dsimp only at h
      split at h
      · cases h
      · cases h
      · rename_i s₂ hd
        exact .inr ⟨l, r, mfv, p, g, rest, s₂, hst, hpend, hd, (Step.next.inj h).symm⟩

theorem step_stop_cases {s s' : Handler O} {b : Bool} (h : step R cfg s = .stop b s') :
    (s.taskStack = [] ∧ b = true ∧ s' = s) ∨
    (∃ p rest, s.taskStack = .forceFail p :: rest ∧ checkResult cfg false (some p) s = .ok (b, s')) ∨
    (∃ l r mfv p g rest, s.taskStack = .reduce l r mfv p false g :: rest ∧ b = false ∧
      dispatchSEqualReduce R cfg
        { s with taskStack := .reduce l r mfv p true g :: rest, allowPushToStack := false }
        l r mfv p = .ok (false, s')) := by
  unfold step at h
  split at h
  · rename_i hst
    cases h
    exact .inl ⟨hst, rfl, rfl⟩
  · rename_i p rest hst
    split at h
    · rename_i hc
      cases h
      exact .inr (.inl ⟨p, rest, hst, hc⟩)
    · cases h
  · split at h <;> cases h
  · rename_i l r mfv p g rest hst
    split at h
    · cases h
    · dsimp only at h
      split at h
      · cases h
      · rename_i hd
        cases h
        exact .inr (.inr ⟨l, r, mfv, p, g, rest, hst, rfl, hd⟩)
      · cases h

theorem runTasks_cases : ∀ {n : Nat} {s : Handler O} {res : Step O}, runTasks R cfg n s = res →
    ∃ s₁, Runs R cfg s s₁ ∧ (res = .next s₁ ∨ step R cfg s₁ = res)
  | 0, s, _, h => ⟨s, .refl, .inl h.symm⟩
  | n + 1, s, res, h => by
    simp only [runTasks] at h
    split at h
    · rename_i s₁ h₁
      obtain ⟨s₂, hrun, hres⟩ := runTasks_cases h
      exact ⟨s₂, .head h₁ hrun, hres⟩
    · exact ⟨s, .refl, .inr h⟩

theorem Runs.of_runTasks_next {n : Nat} {s s' : Handler O} (h : runTasks R cfg n s = .next s') :
    Runs R cfg s s' := by
  obtain ⟨s₁, hrun, hres | hres⟩ := runTasks_cases h
  · cases hres
    exact hrun
  · exact hrun.tail hres

theorem Runs.of_runTasks_stop {n : Nat} {s s' : Handler O} {b : Bool}
    (h : runTasks R cfg n s = .stop b s') : ∃ s₁, Runs R cfg s s₁ ∧ step R cfg s₁ = .stop b s' := by
  obtain ⟨s₁, hrun, hres | hres⟩ := runTasks_cases h
  · cases hres
  · exact ⟨s₁, hrun, hres⟩

theorem runTasks_add : ∀ (n k : Nat) (s : Handler O), runTasks R cfg (n + k) s =
    match runTasks R cfg n s with
    | .next s' => runTasks R cfg k s'
    | res => res
  | 0, k, s => by simp [runTasks]
  | n + 1, k, s => by
    rw [Nat.add_right_comm, runTasks, runTasks]
    cases hs : step R cfg s <;> simp only
    exact runTasks_add n k _

theorem Runs.invariant {P : Handler O → Prop} (hP : ∀ s s', P s → Next R cfg s s' → P s')
    {s s' : Handler O} (h : Runs R cfg s s') (hs : P s) : P s' := by
  induction h with
  | refl => exact hs
  | tail _ hnext ih => exact hP _ _ ih hnext

def Handler.root (cfg : Config) (l r : O) (mfv : Bool) : Handler O :=
  ⟨[], [.reduce l r mfv (if cfg.tracing then some ⟨[], []⟩ else none) false false], true, none,
    fun _ => none, fun _ => none, []⟩

variable (R cfg) in
theorem equal_init_obj (fuel : Nat) {l r : O} (ht : R.typeIndex l = R.typeIndex r) (mfv : Bool) :
    equal R cfg fuel .init (.obj l) (.obj r) mfv = runTasks R cfg fuel (Handler.root cfg l r mfv) := by
  simp only [equal, sequalReduce, sequalReduceRun, checkResult, ht, mapResult, ne_eq,
    not_true_eq_false, if_false, if_true, Option.isSome_none, Bool.false_eq_true, Bool.not_true,
    Bool.and_false]
  rfl

variable (R cfg) in
theorem equal_init_cases (fuel : Nat) (lhs rhs : Any O) (mfv : Bool) :
    (∃ l r, lhs = .obj l ∧ rhs = .obj r ∧ R.typeIndex l = R.typeIndex r ∧
      equal R cfg fuel .init lhs rhs mfv = runTasks R cfg fuel (Handler.root cfg l r mfv)) ∨
    equal R cfg fuel .init lhs rhs mfv = .stop true .init ∨
    equal R cfg fuel .init lhs rhs mfv =
      match checkResult cfg false (if cfg.tracing then some ⟨[], []⟩ else none) .init with
      | .ok (b, s) => .stop b s
      | .error e => .fatal e := by
  rcases lhs with ⟨t, bits⟩ | l <;> rcases rhs with ⟨t', bits'⟩ | r
  · by_cases heq : t = t' ∧ bits = bits'
    · exact .inr (.inl (by simp only [equal, heq, and_self, if_true]; rfl))
    · exact .inr (.inr (by simp only [equal, heq, if_false]; rfl))
  · exact .inr (.inr rfl)
  · exact .inr (.inr rfl)
  by_cases ht : R.typeIndex l = R.typeIndex r
  · exact .inl ⟨l, r, rfl, rfl, ht, equal_init_obj R cfg fuel ht mfv⟩
  · exact .inr (.inr (by simp only [equal, ht, ne_eq, not_false_eq_true, if_true]; rfl))

end Runs

section Maps

variable {R : Registry O} {cfg : Config} {rank : O → Nat}

def Task.Settled (mapLhs mapRhs : O → Option O) : Task O → Prop
  | .reduce l r _ _ true _ => (mapLhs l = none ∧ mapRhs r = none) ∨ mapLhs l = some r
  | _ => True

def Task.Below (rank : O → Nat) : Task O → Task O → Prop
  | .reduce l' r' _ _ _ _, .reduce l r _ _ true _ => rank l' < rank l ∧ rank r' < rank r
  | _, _ => True

/-- The invariant of the remap maps along a run on ranked graphs. -/
structure Handler.MapsOK (rank : O → Nat) (s : Handler O) : Prop where
  inverse : ∀ l r, s.equalMapLhs l = some r ↔ s.equalMapRhs r = some l
  pending : s.pendingTasks = []
  settled : ∀ t ∈ s.taskStack, t.Settled s.equalMapLhs s.equalMapRhs
  ordered : s.taskStack.Pairwise (Task.Below rank)

omit [DecidableEq O] in
@[simp] theorem Task.markIf_reduce (g' : Bool) (l r : O) (mfv : Bool) (p : Option ObjectPathPair)
    (e g : Bool) : (Task.reduce l r mfv p e g).markIf g' = .reduce l r mfv p e (g' || g) := by
  cases g' <;> rfl

omit [DecidableEq O] in
theorem Task.below_reduce {l r : O} {mfv mfv' : Bool} {p p' : Option ObjectPathPair}
    {e e' g g' : Bool} (t : Task O) :
    Task.Below rank (.reduce l r mfv p e g) t ↔ Task.Below rank (.reduce l r mfv' p' e' g') t := by
  rcases t with ⟨_, _, _, _, _ | _, _⟩ | _ <;> simp [Task.Below]

omit [DecidableEq O] in
theorem Task.Below.of_lt {l r l' r' : O} {mfv mfv' : Bool} {p p' : Option ObjectPathPair}
    {e e' g g' : Bool} {t : Task O} (hl : rank l' < rank l) (hr : rank r' < rank r)
    (h : Task.Below rank (.reduce l r mfv p e g) t) : Task.Below rank (.reduce l' r' mfv' p' e' g') t := by
  rcases t with ⟨_, _, _, _, _ | _, _⟩ | _
  all_goals simp only [Task.Below] at h ⊢
  exact ⟨by omega, by omega⟩

omit [DecidableEq O] in
theorem Task.below_of_queued {cs : List (Check O)} {current : Option ObjectPathPair} {t e : Task O}
    (he : e.QueuedBy cs current) : Task.Below rank t e := by
  rcases t with ⟨⟩ | _ <;> rcases e with ⟨_, _, _, _, _ | _, _⟩ | _ <;> simp_all [Task.Below, Task.QueuedBy]

omit [DecidableEq O] in
theorem Task.settled_of_queued {cs : List (Check O)} {current : Option ObjectPathPair}
    {mapLhs mapRhs : O → Option O} {t : Task O} (ht : t.QueuedBy cs current) :
    t.Settled mapLhs mapRhs := by
  rcases t with ⟨_, _, _, _, _ | _, _⟩ | _ <;> simp_all [Task.Settled, Task.QueuedBy]

theorem settled_of_mapResult {mapLhs mapRhs : O → Option O} {l r : O}
    (h : mapResult mapLhs mapRhs l r ≠ some false) :
    (mapLhs l = none ∧ mapRhs r = none) ∨ mapLhs l = some r := by
  unfold mapResult at h
  split at h
  · rename_i r' hl
    exact .inr (by simpa [hl] using h)
  · rename_i hl
    refine .inl ⟨hl, ?_⟩
    split at h
    · exact absurd rfl h
    · exact Option.not_isSome_iff_eq_none.1 ‹_›

theorem Task.Settled.update {mapLhs mapRhs : O → Option O} {l r : O} {mfv : Bool}
    {p : Option ObjectPathPair} {e g : Bool} {t : Task O} (ht : t.Settled mapLhs mapRhs)
    (hb : Task.Below rank (.reduce l r mfv p e g) t) :
    t.Settled (Function.update mapLhs l (some r)) (Function.update mapRhs r (some l)) := by
  rcases t with ⟨l₂, r₂, _, _, _ | _, _⟩ | _
  all_goals simp only [Task.Settled, Task.Below] at ht hb ⊢
  have hl : l₂ ≠ l := fun h => by subst h; omega
  have hr : r₂ ≠ r := fun h => by subst h; omega
  simpa only [Function.update_noteq hl, Function.update_noteq hr] using ht

theorem insertMaps_of_mapped {s : Handler O} {l r : O} (hl : s.equalMapLhs l = some r)
    (hr : s.equalMapRhs r = some l) : s.insertMaps l r = s := by
  rcases s with ⟨_, _, _, _, mapLhs, mapRhs, _⟩
  simp only [Handler.insertMaps] at hl hr ⊢
  rw [← hl, ← hr, Function.update_eq_self, Function.update_eq_self]

theorem inverse_insertMaps {s : Handler O} {l r : O}
    (hinv : ∀ a b, s.equalMapLhs a = some b ↔ s.equalMapRhs b = some a)
    (ht : (s.equalMapLhs l = none ∧ s.equalMapRhs r = none) ∨ s.equalMapLhs l = some r) :
    ∀ a b, (s.insertMaps l r).equalMapLhs a = some b ↔ (s.insertMaps l r).equalMapRhs b = some a := by
  rcases ht with ⟨hl, hr⟩ | hl
  · exact @EagerState.Inv.insert O _ ⟨s.equalMapLhs, s.equalMapRhs, []⟩ hinv l r hl hr
  · rw [insertMaps_of_mapped hl ((hinv l r).1 hl)]
    exact hinv

omit [DecidableEq O] in
theorem Handler.MapsOK.root (cfg : Config) (l r : O) (mfv : Bool) :
    (Handler.root cfg l r mfv).MapsOK rank :=
  ⟨fun _ _ => by simp [Handler.root], rfl, by simp [Handler.root, Task.Settled],
    List.pairwise_singleton _ _⟩

theorem Handler.MapsOK.of_next (hR : Ranked R rank) {s s' : Handler O} (hs : s.MapsOK rank)
    (h : step R cfg s = .next s') : s'.MapsOK rank := by
  rcases step_next_cases h with ⟨l, r, mfv, p, g, rest, hst, -, rfl⟩ |
    ⟨l, r, mfv, p, g, rest, s₂, hst, -, hd, rfl⟩
  · -- completion: the pair is added when marked, and the tasks under it stay settled
    have htop := hs.settled _ (hst ▸ List.mem_cons_self _ _)
    have hord := hst ▸ hs.ordered
    simp only [Task.Settled] at htop
    rw [List.pairwise_cons] at hord
    have hsettled : ∀ t ∈ rest, t.Settled s.equalMapLhs s.equalMapRhs :=
      fun t ht => hs.settled t (hst ▸ List.mem_cons_of_mem _ ht)
    cases g
    · exact ⟨hs.inverse, hs.pending, hsettled, hord.2⟩
    · exact ⟨inverse_insertMaps hs.inverse htop, hs.pending,
        fun t ht => (hsettled t ht).update (hord.1 t ht), hord.2⟩
  · -- expansion: the queued children rank below the pair, which is settled by its lookup
    obtain ⟨ht, hf, htrue, -⟩ := dispatch_frame R cfg hd
    obtain ⟨hm, -⟩ := htrue rfl
    obtain ⟨new, hnew, hq⟩ := hf.pending
    obtain ⟨g', hg'⟩ := hf.stack
    simp only [hs.pending, List.nil_append] at hnew
    simp only [List.modifyHead_cons, Task.markIf_reduce] at hg'
    have hord := hst ▸ hs.ordered
    rw [List.pairwise_cons] at hord
    have hchild : ∀ t ∈ new, ∀ e ∈ Task.reduce l r mfv p true (g' || g) :: rest,
        Task.Below rank t e := by
      intro t htn e he
      rcases t with ⟨l', r', _, _, _, _⟩ | _
      · obtain ⟨-, -, -, d, site, hc⟩ := hq _ htn
        obtain ⟨hl, hr⟩ := hR mfv l r ht l' r' d site hc
        rcases List.mem_cons.1 he with rfl | he
        · exact ⟨hl, hr⟩
        · exact Task.Below.of_lt hl hr (hord.1 e he)
      · trivial
    refine ⟨by rw [hf.equalMapLhs, hf.equalMapRhs]; exact hs.inverse, rfl, ?_, ?_⟩
    · intro t ht
      rw [hnew, hg', List.mem_append, List.mem_cons] at ht
      rw [hf.equalMapLhs, hf.equalMapRhs]
      rcases ht with ht | rfl | ht
      · exact Task.settled_of_queued (hq t ht)
      · exact settled_of_mapResult hm
      · exact hs.settled t (hst ▸ List.mem_cons_of_mem _ ht)
    · rw [hnew, hg', List.pairwise_append, List.pairwise_cons]
      refine ⟨(List.pairwise_of_forall fun _ _ => trivial).imp_of_mem
          fun _ hb _ => Task.below_of_queued (hq _ hb), ⟨fun e he => ?_, hord.2⟩, hchild⟩
      exact (Task.below_reduce e).1 (hord.1 e he)

theorem Handler.MapsOK.grows_of_next {s s' : Handler O} (hs : s.MapsOK rank)
    (h : step R cfg s = .next s') (a b : O) :
    (s.equalMapLhs a = some b → s'.equalMapLhs a = some b) ∧
      (s.equalMapRhs b = some a → s'.equalMapRhs b = some a) := by
  rcases step_next_cases h with ⟨l, r, mfv, p, g, rest, hst, -, rfl⟩ |
    ⟨l, r, mfv, p, g, rest, s₂, hst, -, hd, rfl⟩
  · have htop := hs.settled _ (hst ▸ List.mem_cons_self _ _)
    simp only [Task.Settled] at htop
    cases g
    · exact ⟨id, id⟩
    · rcases htop with ⟨hl, hr⟩ | hl
      · have hg := @EagerState.grows_insert O _ ⟨s.equalMapLhs, s.equalMapRhs, []⟩ l r hl hr
        exact ⟨hg.lhs a b, hg.rhs b a⟩
      · rw [insertMaps_of_mapped hl ((hs.inverse l r).1 hl)]
        exact ⟨id, id⟩
  · obtain ⟨-, hf, -, -⟩ := dispatch_frame R cfg hd
    exact ⟨fun h => by rw [← hf.equalMapLhs] at h; exact h, fun h => by rw [← hf.equalMapRhs] at h; exact h⟩

theorem step_stop_maps {s s' : Handler O} {b : Bool} (h : step R cfg s = .stop b s') :
    s'.equalMapLhs = s.equalMapLhs ∧ s'.equalMapRhs = s.equalMapRhs := by
  rcases step_stop_cases h with ⟨-, -, rfl⟩ | ⟨p, rest, -, hc⟩ | ⟨l, r, mfv, p, g, rest, -, -, hd⟩
  · exact ⟨rfl, rfl⟩
  · obtain ⟨-, hs', -⟩ := checkResult_ok hc
    rw [hs']
    exact ⟨rfl, rfl⟩
  · obtain ⟨-, hf, -⟩ := dispatch_frame R cfg hd
    exact ⟨hf.equalMapLhs, hf.equalMapRhs⟩

theorem Handler.MapsOK.grows_of_runs (hR : Ranked R rank) {s s' : Handler O}
    (hrun : Runs R cfg s s') (hs : s.MapsOK rank) (a b : O) :
    (s.equalMapLhs a = some b → s'.equalMapLhs a = some b) ∧
      (s.equalMapRhs b = some a → s'.equalMapRhs b = some a) := by
  induction hrun with
  | refl => exact ⟨id, id⟩
  | tail hrun hn ih =>
    have hs₁ := Runs.invariant (fun _ _ hs hn => hs.of_next hR hn) hrun hs
    exact ⟨fun h => (hs₁.grows_of_next hn a b).1 (ih.1 h),
      fun h => (hs₁.grows_of_next hn a b).2 (ih.2 h)⟩

theorem runTasks_maps {n : Nat} {s s' : Handler O}
    (hs : runTasks R cfg n s = .next s' ∨ ∃ b, runTasks R cfg n s = .stop b s') :
    ∃ s₁, Runs R cfg s s₁ ∧ s'.equalMapLhs = s₁.equalMapLhs ∧ s'.equalMapRhs = s₁.equalMapRhs := by
  rcases hs with hs | ⟨b, hs⟩
  · exact ⟨s', .of_runTasks_next hs, rfl, rfl⟩
  · obtain ⟨s₁, hrun, hstop⟩ := Runs.of_runTasks_stop hs
    exact ⟨s₁, hrun, step_stop_maps hstop⟩

end Maps

section Mismatch

variable {R : Registry O} {cfg : Config}

def Task.Traced : Task O → Prop
  | .reduce _ _ _ p _ _ => p.isSome
  | .forceFail _ => True

omit [DecidableEq O] in
theorem Task.traced_markIf (g : Bool) (t : Task O) : (t.markIf g).Traced ↔ t.Traced := by
  cases g <;> cases t <;> rfl

structure Handler.Unrecorded (s : Handler O) : Prop where
  firstMismatch : s.firstMismatch = none
  pending : s.pendingTasks = []
  traced : ∀ t ∈ s.taskStack, t.Traced

omit [DecidableEq O] in
theorem Handler.Unrecorded.root (htr : cfg.tracing = true) (l r : O) (mfv : Bool) :
    (Handler.root cfg l r mfv).Unrecorded :=
  ⟨rfl, rfl, by simp [Handler.root, Task.Traced, htr]⟩

variable (htr : cfg.tracing = true)
include htr

theorem Handler.Unrecorded.of_next {s s' : Handler O} (hs : s.Unrecorded)
    (h : step R cfg s = .next s') : s'.Unrecorded := by
  rcases step_next_cases h with ⟨l, r, mfv, p, g, rest, hst, -, rfl⟩ |
    ⟨l, r, mfv, p, g, rest, s₂, hst, -, hd, rfl⟩
  · have htraced : ∀ t ∈ rest, t.Traced := fun t ht => hs.traced t (hst ▸ List.mem_cons_of_mem _ ht)
    cases g
    exacts [⟨hs.firstMismatch, hs.pending, htraced⟩, ⟨hs.firstMismatch, hs.pending, htraced⟩]
  · have hp : p.isSome := hs.traced (.reduce l r mfv p false g) (hst ▸ List.mem_cons_self _ _)
    obtain ⟨-, hf, htrue, -⟩ := dispatch_frame R cfg hd
    obtain ⟨new, hnew, hq⟩ := hf.pending
    obtain ⟨g', hg'⟩ := hf.stack
    refine ⟨(htrue rfl).2.trans hs.firstMismatch, rfl, fun t ht => ?_⟩
    simp only [hnew, hg', hs.pending, List.nil_append, List.modifyHead_cons, List.mem_append,
      List.mem_cons] at ht
    rcases ht with ht | rfl | ht
    · have := hq t ht
      simp only [htr, if_true] at this
      rcases t with ⟨⟩ | _
      · exact this.2.2.1.trans hp
      · trivial
    · exact (Task.traced_markIf _ _).2 hp
    · exact hs.traced t (hst ▸ List.mem_cons_of_mem _ ht)

theorem Handler.Unrecorded.of_stop {s s' : Handler O} {b : Bool} (hs : s.Unrecorded)
    (h : step R cfg s = .stop b s') : b = true ↔ s'.firstMismatch = none := by
  rcases step_stop_cases h with ⟨-, rfl, rfl⟩ | ⟨p, rest, -, hc⟩ |
    ⟨l, r, mfv, p, g, rest, hst, rfl, hd⟩
  · exact iff_of_true rfl hs.firstMismatch
  · obtain ⟨rfl, -, -, hslot⟩ := checkResult_ok hc
    exact iff_of_false Bool.false_ne_true (Option.isSome_iff_ne_none.1 (hslot htr rfl rfl))
  · have hp : p.isSome := hs.traced (.reduce l r mfv p false g) (hst ▸ List.mem_cons_self _ _)
    obtain ⟨-, -, -, hslot⟩ := dispatch_frame R cfg hd
    exact iff_of_false Bool.false_ne_true (Option.isSome_iff_ne_none.1 (hslot htr rfl hp))

end Mismatch

/-- With path tracing `Equal` returns true exactly when it records no mismatch. -/
theorem equal_true_iff_firstMismatch_none (R : Registry O) (cfg : Config)
    (htr : cfg.tracing = true) (lhs rhs : Any O) (mfv : Bool) {fuel : Nat} {b : Bool}
    {s : Handler O} (h : equal R cfg fuel .init lhs rhs mfv = .stop b s) :
    b = true ↔ s.firstMismatch = none := by
  rcases equal_init_cases R cfg fuel lhs rhs mfv with ⟨l, r, -, -, -, he⟩ | he | he <;>
    rw [he] at h
  · obtain ⟨s₁, hrun, hres⟩ := runTasks_cases h
    have hs₁ := hrun.invariant (fun _ _ hs hn => Handler.Unrecorded.of_next htr hs hn)
      (Handler.Unrecorded.root htr l r mfv)
    rcases hres with hres | hres
    · cases hres
    · exact hs₁.of_stop htr hres
  · cases h
    exact iff_of_true rfl rfl
  · split at h
    · rename_i b₀ s₀ hc
      cases h
      obtain ⟨rfl, -, -, hslot⟩ := checkResult_ok hc
      exact iff_of_false Bool.false_ne_true
        (Option.isSome_iff_ne_none.1 (hslot htr rfl (by simp [htr])))
    · cases h

theorem equal_true_iff_firstMismatch_none_chain :
    (⟨false, true, true⟩ : Config).tracing = true ∧
      ∃ b s, equal chainRegistry ⟨false, true, true⟩ 10 .init (.obj 3) (.obj 2) false = .stop b s ∧
        (b = true ↔ s.firstMismatch = none) :=
  ⟨rfl, _, _, rfl, @equal_true_iff_firstMismatch_none Nat _ chainRegistry ⟨false, true, true⟩ rfl
    (.obj 3) (.obj 2) false 10 _ _ rfl⟩

/-- On acyclic graphs the remap maps stay inverse, keep their entries and pass `same_as`. -/
theorem equal_remap_maps_inverse (R : Registry O) (rank : O → Nat) (hR : Ranked R rank)
    (cfg : Config) (l r : O) (mfv : Bool) :
    (∀ fuel s, (equal R cfg fuel .init (.obj l) (.obj r) mfv = .next s ∨
        ∃ b, equal R cfg fuel .init (.obj l) (.obj r) mfv = .stop b s) →
      (∀ a b, s.equalMapLhs a = some b ↔ s.equalMapRhs b = some a) ∧
      (∀ a a' b, s.equalMapLhs a = some b → s.equalMapLhs a' = some b → a = a') ∧
      (∀ b b' a, s.equalMapRhs b = some a → s.equalMapRhs b' = some a → b = b')) ∧
    (∀ fuel fuel' s s', fuel ≤ fuel' → equal R cfg fuel .init (.obj l) (.obj r) mfv = .next s →
      (equal R cfg fuel' .init (.obj l) (.obj r) mfv = .next s' ∨
        ∃ b, equal R cfg fuel' .init (.obj l) (.obj r) mfv = .stop b s') →
      ∀ a b, (s.equalMapLhs a = some b → s'.equalMapLhs a = some b) ∧
        (s.equalMapRhs b = some a → s'.equalMapRhs b = some a)) ∧
    (∀ fuel s l' r' mfv' p g rest, equal R cfg fuel .init (.obj l) (.obj r) mfv = .next s →
      s.taskStack = .reduce l' r' mfv' p true g :: rest →
      s.equalMapLhs l' = none ∨ s.equalMapLhs l' = some r') := by
  have hinj : ∀ {s : Handler O}, (∀ a b, s.equalMapLhs a = some b ↔ s.equalMapRhs b = some a) →
      (∀ a b, s.equalMapLhs a = some b ↔ s.equalMapRhs b = some a) ∧
      (∀ a a' b, s.equalMapLhs a = some b → s.equalMapLhs a' = some b → a = a') ∧
      (∀ b b' a, s.equalMapRhs b = some a → s.equalMapRhs b' = some a → b = b') :=
    fun hinv => ⟨hinv,
      fun a a' b h h' => Option.some.inj (((hinv a b).1 h).symm.trans ((hinv a' b).1 h')),
      fun b b' a h h' => Option.some.inj (((hinv a b).2 h).symm.trans ((hinv a b').2 h'))⟩
  by_cases ht : R.typeIndex l = R.typeIndex r
  · -- the run from the root task keeps the maps invariant at every state it reaches
    simp only [equal_init_obj R cfg _ ht]
    have hok : ∀ {s}, Runs R cfg (Handler.root cfg l r mfv) s → s.MapsOK rank := fun hrun =>
      hrun.invariant (fun _ _ hs hn => hs.of_next hR hn) (Handler.MapsOK.root cfg l r mfv)
    refine ⟨fun fuel s hs => hinj ?_, fun fuel fuel' s s' hle hs hs' a b => ?_,
      fun fuel s l' r' mfv' p g rest hs hst => ?_⟩
    · obtain ⟨s₁, hrun, hl, hr⟩ := runTasks_maps hs
      rw [hl, hr]
      exact (hok hrun).inverse
    · obtain ⟨k, rfl⟩ := Nat.exists_eq_add_of_le hle
      rw [runTasks_add, hs] at hs'
      obtain ⟨s₁, hrun, hl, hr⟩ := runTasks_maps hs'
      rw [hl, hr]
      exact (hok (.of_runTasks_next hs)).grows_of_runs hR hrun a b
    · have := (hok (.of_runTasks_next hs)).settled _ (hst ▸ List.mem_cons_self _ _)
      simp only [Task.Settled] at this
      exact this.imp And.left id
  · -- a type mismatch at the root: `Equal` returns false from empty maps before any iteration
    simp only [equal, ht, ne_eq, not_false_eq_true, if_true]
    refine ⟨fun fuel s hs => hinj ?_, fun fuel fuel' s s' _ hs => ?_, fun fuel s _ _ _ _ _ _ hs => ?_⟩
    · rcases hs with hs | ⟨b, hs⟩ <;> split at hs <;> cases hs
      rename_i hc
      obtain ⟨-, hs', -⟩ := checkResult_ok hc
      rw [hs']
      simp [Handler.init]
    all_goals (split at hs <;> cases hs)

theorem equal_remap_maps_inverse_chain : Ranked chainRegistry id ∧
    (∀ fuel s, (equal chainRegistry ⟨false, true, true⟩ fuel .init (.obj 3) (.obj 3) false = .next s ∨
        ∃ b, equal chainRegistry ⟨false, true, true⟩ fuel .init (.obj 3) (.obj 3) false = .stop b s) →
      (∀ a b, s.equalMapLhs a = some b ↔ s.equalMapRhs b = some a) ∧
      (∀ a a' b, s.equalMapLhs a = some b → s.equalMapLhs a' = some b → a = a') ∧
      (∀ b b' a, s.equalMapRhs b = some a → s.equalMapRhs b' = some a → b = b')) ∧
    (∀ fuel fuel' s s', fuel ≤ fuel' →
      equal chainRegistry ⟨false, true, true⟩ fuel .init (.obj 3) (.obj 3) false = .next s →
      (equal chainRegistry ⟨false, true, true⟩ fuel' .init (.obj 3) (.obj 3) false = .next s' ∨
        ∃ b, equal chainRegistry ⟨false, true, true⟩ fuel' .init (.obj 3) (.obj 3) false = .stop b s') →
      ∀ a b, (s.equalMapLhs a = some b → s'.equalMapLhs a = some b) ∧
        (s.equalMapRhs b = some a → s'.equalMapRhs b = some a)) ∧
    (∀ fuel s l' r' mfv' p g rest,
      equal chainRegistry ⟨false, true, true⟩ fuel .init (.obj 3) (.obj 3) false = .next s →
      s.taskStack = .reduce l' r' mfv' p true g :: rest →
      s.equalMapLhs l' = none ∨ s.equalMapLhs l' = some r') :=
  ⟨chainRegistry_ranked,
    equal_remap_maps_inverse chainRegistry id chainRegistry_ranked ⟨false, true, true⟩ 3 3 false⟩

end Tvm.SEqual
