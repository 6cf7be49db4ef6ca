import Mathlib.Logic.Function.Basic
import Tvm.Monad

namespace Tvm.SEqual

inductive PathSeg where
  | attr (name : String)
  | index (k : Nat)
  | missing
  deriving DecidableEq, Repr

/-- `ObjectPath`: the segments after `ObjectPath::Root()`, outermost first. -/
abbrev ObjectPath := List PathSeg

/-- `ObjectPath::Attr(Optional<String>)`: `Attr(name)`, or `Missing` when there is no name. -/
def ObjectPath.attr (p : ObjectPath) : Option String → ObjectPath
  | some name => p ++ [.attr name]
  | none => p ++ [.missing]

structure ObjectPathPair where
  lhsPath : ObjectPath
  rhsPath : ObjectPath
  deriving DecidableEq, Repr

/-- Where a traced comparison's paths come from: explicit, the current ones, or addresses. -/
inductive PathSource where
  | explicit (paths : ObjectPathPair → ObjectPathPair)
  | attrs (lhsKey rhsKey : Option String)

def PathSource.resolve (current : ObjectPathPair) : PathSource → ObjectPathPair
  | .explicit paths => paths current
  | .attrs lhsKey rhsKey => ⟨current.lhsPath.attr lhsKey, current.rhsPath.attr rhsKey⟩

/-- One comparison a per-type reducer makes; a reducer stops at the first that returns false. -/
inductive Check (O : Type) where
  /-- A comparison of primitive values, with its outcome; a mismatch records the paths of
  `site`, when there is one. -/
  | prim (eq : Bool) (site : Option PathSource)
  /-- `equal(lhs, rhs)` on object attributes, or `equal.DefEqual(lhs, rhs)` when `defEqual`. -/
  | object (lhs rhs : Option O) (defEqual : Bool) (site : PathSource)
  /-- `equal->MarkGraphNode()`. -/
  | mark

section Reducer

variable {O : Type}

/-- `SEqualReducer::operator()` on primitive attributes passed by reference. -/
def compareAttributeValues (eq : Bool) (lhsKey rhsKey : Option String)
    (paths : Option (ObjectPathPair → ObjectPathPair)) : Check O :=
  .prim eq (some (match paths with
    | some p => .explicit p
    | none => .attrs lhsKey rhsKey))

/-- `SEqualReducer::EnumAttrsEqual`: it resolves the addresses of its own by-value parameters. -/
def enumAttrsEqual (eq : Bool) (_lhsKey _rhsKey : Option String)
    (paths : Option (ObjectPathPair → ObjectPathPair)) : Check O :=
  .prim eq (some (match paths with
    | some p => .explicit p
    | none => .attrs none none))

/-- `SEqualReducer::operator()` and `DefEqual` on object attributes (`ObjectAttrsEqual`). -/
def objectAttrsEqual (lhs rhs : Option O) (defEqual : Bool) (lhsKey rhsKey : Option String)
    (paths : Option (ObjectPathPair → ObjectPathPair)) : Check O :=
  .object lhs rhs defEqual (match paths with
    | some p => .explicit p
    | none => .attrs lhsKey rhsKey)

/-- A value an `ffi::Any` holds: a POD value with its type index, or an object. -/
inductive Any (O : Type) where
  | pod (typeIndex : Nat) (bits : UInt64)
  | obj (o : O)

/-- `SEqualReducer::AnyEqual`: objects go through local copies, whose paths name no attribute. -/
def anyEqual (typeIndex : O → Nat) (lhs rhs : Any O)
    (paths : Option (ObjectPathPair → ObjectPathPair)) : Check O :=
  match lhs, rhs with
  | .obj l, .obj r =>
    if typeIndex l = typeIndex r then
      .object (some l) (some r) false (match paths with
        | some p => .explicit p
        | none => .attrs none none)
    else .prim false (paths.map .explicit)
  | .pod t b, .pod t' b' => .prim (t == t' && b == b') (paths.map .explicit)
  | _, _ => .prim false (paths.map .explicit)

end Reducer

/-- The reflection tables: each object's `type_index()` and the checks its `SEqualReduce` makes. -/
structure Registry (O : Type) where
  typeIndex : O → Nat
  reduce : Bool → O → O → List (Check O)

/-- The handler's options: `assert_mode`, path tracing (`first_mismatch != nullptr`), deferral. -/
structure Config where
  assertMode : Bool
  tracing : Bool
  deferFails : Bool

/-- `SEqualHandlerDefault::Impl::Task`. A force-fail task carries only its paths. -/
inductive Task (O : Type) where
  | reduce (lhs rhs : O) (mapFreeVars : Bool) (currentPaths : Option ObjectPathPair)
      (childrenExpanded graphEqual : Bool)
  | forceFail (currentPaths : ObjectPathPair)

/-- `task_stack_.back().graph_equal = true`. -/
def Task.markGraph {O : Type} : Task O → Task O
  | .reduce l r mfv p e _ => .reduce l r mfv p e true
  | t => t

/-- The state of a `SEqualHandlerDefault::Impl`. -/
structure Handler (O : Type) where
  pendingTasks : List (Task O)
  /-- `task_stack_`, its top (`back()`) first. -/
  taskStack : List (Task O)
  allowPushToStack : Bool
  /-- The caller's `first_mismatch` slot. -/
  firstMismatch : Option ObjectPathPair
  equalMapLhs : O → Option O
  equalMapRhs : O → Option O
  /-- Not in the source: the reducer invocations so far, as `(lhs, rhs, map_free_vars)`. -/
  invoked : List (O × O × Bool)

def Handler.init {O : Type} : Handler O :=
  ⟨[], [], true, none, fun _ => none, fun _ => none, []⟩

inductive Fatal where
  /-- An `ICHECK` that failed, named by its condition. -/
  | icheck (condition : String)
  /-- `current_paths.value()` on undefined paths. -/
  | noCurrentPaths
  /-- Assert mode: "ValueError: StructuralEqual check failed", with the recorded mismatch. -/
  | assertFailed (firstMismatch : Option ObjectPathPair)
  /-- Assert mode without path tracing: `first_mismatch_->defined()` through a null pointer. -/
  | nullFirstMismatch
  deriving DecidableEq, Repr

/-- Where one iteration of `RunTasks` leaves the engine. -/
inductive Step (O : Type) where
  | next (s : Handler O)
  | stop (result : Bool) (s : Handler O)
  | fatal (e : Fatal)

end Tvm.SEqual
