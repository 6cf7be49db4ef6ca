import Tvm.SEqual.Basic

namespace Tvm.SEqual

variable {O : Type} [DecidableEq O]

/-- The remap lookups of `SEqualReduce` and `DispatchSEqualReduce`: decided, failed, or open. -/
def mapResult (mapLhs mapRhs : O → Option O) (l r : O) : Option Bool :=
  match mapLhs l with
  | some r' => some (decide (r' = r))
  | none => if (mapRhs r).isSome then some false else none

/-- Record `paths` in the first-mismatch slot unless it is already set. -/
def Handler.recordMismatch (s : Handler O) (paths : ObjectPathPair) : Handler O :=
  if s.firstMismatch.isNone then { s with firstMismatch := some paths } else s

/-- `equal_map_lhs_[lhs] = rhs; equal_map_rhs_[rhs] = lhs`. -/
def Handler.insertMaps (s : Handler O) (l r : O) : Handler O :=
  { s with equalMapLhs := Function.update s.equalMapLhs l (some r),
           equalMapRhs := Function.update s.equalMapRhs r (some l) }

section Engine

variable (R : Registry O) (cfg : Config)

/-- What `CheckResult` fails with in assert mode: the assertion, or without tracing a null read. -/
def assertFailure (tracing : Bool) (firstMismatch : Option ObjectPathPair) : Fatal :=
  if tracing then .assertFailed firstMismatch else .nullFirstMismatch

@[simp] theorem assertFailure_true (fm : Option ObjectPathPair) :
    assertFailure true fm = .assertFailed fm := rfl

@[simp] theorem assertFailure_false (fm : Option ObjectPathPair) :
    assertFailure false fm = .nullFirstMismatch := rfl

def checkResult (result : Bool) (currentPaths : Option ObjectPathPair) (s : Handler O) :
    Except Fatal (Bool × Handler O) :=
  let s := if cfg.tracing && !result && s.firstMismatch.isNone then
    { s with firstMismatch := currentPaths } else s
  if cfg.assertMode && !result then .error (assertFailure cfg.tracing s.firstMismatch)
  else .ok (result, s)

/-- An early `false` of `SEqualReduce`, which `DeferFail` turns into a force-fail task. -/
def deferFail (currentPaths : Option ObjectPathPair) : Bool × List (Task O) :=
  match currentPaths with
  | some p => if cfg.tracing && cfg.deferFails then (true, [.forceFail p]) else (false, [])
  | none => (false, [])

/-- The `run` lambda of `Impl::SEqualReduce`: the early checks, else a new pending task. -/
def sequalReduceRun (mapLhs mapRhs : O → Option O) (lhs rhs : Option O) (mapFreeVars : Bool)
    (currentPaths : Option ObjectPathPair) : Bool × List (Task O) :=
  match lhs, rhs with
  | none, none => (true, [])
  | some l, some r =>
    if R.typeIndex l = R.typeIndex r then
      match mapResult mapLhs mapRhs l r with
      | some true => (true, [])
      | some false => deferFail cfg currentPaths
      | none => (true, [.reduce l r mapFreeVars currentPaths false false])
    else deferFail cfg currentPaths
  | _, _ => deferFail cfg currentPaths

def sequalReduce (s : Handler O) (lhs rhs : Option O) (mapFreeVars : Bool)
    (currentPaths : Option ObjectPathPair) : Except Fatal (Bool × Handler O) :=
  let run := sequalReduceRun R cfg s.equalMapLhs s.equalMapRhs lhs rhs mapFreeVars currentPaths
  checkResult cfg run.1 currentPaths { s with pendingTasks := s.pendingTasks ++ run.2 }

def markGraphNode (s : Handler O) : Except Fatal (Handler O) :=
  match s.taskStack with
  | t :: rest =>
    if s.allowPushToStack then .error (.icheck "!allow_push_to_stack_ && !task_stack_.empty()")
    else .ok { s with taskStack := t.markGraph :: rest }
  | [] => .error (.icheck "!allow_push_to_stack_ && !task_stack_.empty()")

/-- One check of a reducer; `current` holds the dispatching task's paths when tracing is on. -/
def runCheck (mapFreeVars : Bool) (current : Option ObjectPathPair) (s : Handler O) :
    Check O → Except Fatal (Bool × Handler O)
  | .prim eq site =>
    if eq then .ok (true, s) else
      match current, site with
      | some cur, some site => .ok (false, s.recordMismatch (site.resolve cur))
      | _, _ => .ok (false, s)
  | .object lhs rhs defEqual site =>
    match current with
    | none => sequalReduce R cfg s lhs rhs (defEqual || mapFreeVars) none
    | some cur => do
      let newPaths := site.resolve cur
      let (b, s) ← sequalReduce R cfg s lhs rhs (defEqual || mapFreeVars) (some newPaths)
      if b then pure (true, s) else pure (false, s.recordMismatch newPaths)
  | .mark => do
    let s ← markGraphNode s
    pure (true, s)

/-- A reducer: its checks left to right, stopping at the first that returns false. -/
def runChecks (mapFreeVars : Bool) (current : Option ObjectPathPair) :
    List (Check O) → Handler O → Except Fatal (Bool × Handler O)
  | [], s => .ok (true, s)
  | c :: cs, s => do
    let (b, s) ← runCheck R cfg mapFreeVars current s c
    if b then runChecks mapFreeVars current cs s else pure (false, s)

def dispatchSEqualReduce (s : Handler O) (l r : O) (mapFreeVars : Bool)
    (currentPaths : Option ObjectPathPair) : Except Fatal (Bool × Handler O) := do
  if R.typeIndex l ≠ R.typeIndex r then
    throw (.icheck "lhs.defined() && rhs.defined() && lhs->type_index() == rhs->type_index()")
  let (b, s) ← match mapResult s.equalMapLhs s.equalMapRhs l r with
    | some b => pure (b, s)
    | none =>
      let s := { s with invoked := s.invoked ++ [(l, r, mapFreeVars)] }
      if cfg.tracing then
        match currentPaths with
        | some cur => runChecks R cfg mapFreeVars (some cur) (R.reduce mapFreeVars l r) s
        | none => throw .noCurrentPaths
      else runChecks R cfg mapFreeVars none (R.reduce mapFreeVars l r) s
  checkResult cfg b currentPaths s

/-- One iteration of the `RunTasks` loop. -/
def step (s : Handler O) : Step O :=
  match s.taskStack with
  | [] => .stop true s
  | .forceFail p :: _ =>
    match checkResult cfg false (some p) s with
    | .ok (b, s) => .stop b s
    | .error e => .fatal e
  | .reduce l r _ _ true graphEqual :: rest =>
    if s.equalMapLhs l ≠ none ∧ s.equalMapLhs l ≠ some r then
      .fatal (.icheck "it->second.same_as(entry.rhs)")
    else
      let s := if graphEqual then s.insertMaps l r else s
      .next { s with taskStack := rest }
  | .reduce l r mfv p false graphEqual :: rest =>
    if !s.pendingTasks.isEmpty then .fatal (.icheck "pending_tasks_.size() == 0") else
      let s := { s with taskStack := .reduce l r mfv p true graphEqual :: rest,
                        allowPushToStack := false }
      match dispatchSEqualReduce R cfg s l r mfv p with
      | .error e => .fatal e
      | .ok (false, s) => .stop false s
      | .ok (true, s) =>
        .next { s with allowPushToStack := true, taskStack := s.pendingTasks ++ s.taskStack,
                       pendingTasks := [] }

/-- `Impl::RunTasks`, for at most `fuel` iterations: `.next` when it has not returned yet. -/
def runTasks : Nat → Handler O → Step O
  | 0, s => .next s
  | n + 1, s =>
    match step R cfg s with
    | .next s => runTasks n s
    | r => r

/-- `Impl::Equal`, running `RunTasks` for at most `fuel` iterations. -/
def equal (fuel : Nat) (s : Handler O) (lhs rhs : Any O) (mapFreeVars : Bool) : Step O :=
  let s := { s with pendingTasks := [], taskStack := [], equalMapLhs := fun _ => none,
                    equalMapRhs := fun _ => none }
  let paths : Option ObjectPathPair := if cfg.tracing then some ⟨[], []⟩ else none
  let fail : Step O := match checkResult cfg false paths s with
    | .ok (b, s) => .stop b s
    | .error e => .fatal e
  match lhs, rhs with
  | .pod t b, .pod t' b' => if t = t' ∧ b = b' then .stop true s else fail
  | .obj l, .obj r =>
    if R.typeIndex l ≠ R.typeIndex r then fail else
      match sequalReduce R cfg s (some l) (some r) mapFreeVars paths with
      | .error e => .fatal e
      | .ok (false, s) => .stop false s
      | .ok (true, s) =>
        match s.pendingTasks with
        | [t] =>
          if s.allowPushToStack then runTasks R cfg fuel { s with taskStack := [t], pendingTasks := [] }
          else .fatal (.icheck "allow_push_to_stack_")
        | _ => .fatal (.icheck "pending_tasks_.size() == 1")
  | _, _ => fail

end Engine

end Tvm.SEqual
