import Tvm.SEqual.Invariants
import Tvm.VM.Executable

namespace Tvm.SEqual

open Tvm.VM (Bytes DLDataType kDLCPU)

/-- `runtime::NDArray::Container` as `NDArrayEqual` reads it. -/
structure TensorNode where
  addr : Nat
  deviceType : UInt32
  contiguous : Bool
  shape : List UInt64
  dtype : DLDataType
  data : Bytes
  deriving DecidableEq

/-- `runtime::GetDataSize`: the product of the dimensions times `(bits * lanes + 7) / 8`. -/
def getDataSize (t : TensorNode) : Nat :=
  (t.shape.foldl (· * ·) 1 *
    UInt64.ofNat ((t.dtype.bits.toNat * t.dtype.lanes.toNat + 7) / 8)).toNat

/-- `NDArrayEqual(lhs, rhs, equal, compare_data)`: the checks it makes after its `ICHECK`s. -/
def ndarrayEqual {O : Type} (lhs rhs : TensorNode) (compareData : Bool) :
    Except Fatal (List (Check O)) := do
  if lhs.addr = rhs.addr then return []
  unless lhs.deviceType = kDLCPU do throw (.icheck "lhs->device.device_type == kDLCPU")
  unless rhs.deviceType = kDLCPU do throw (.icheck "rhs->device.device_type == kDLCPU")
  unless lhs.contiguous do throw (.icheck "runtime::IsContiguous(*lhs)")
  unless rhs.contiguous do throw (.icheck "runtime::IsContiguous(*rhs)")
  if lhs.shape.length ≠ rhs.shape.length then return [.prim false none]
  let dims := List.zipWith (fun a b => compareAttributeValues (a == b) none none none)
    lhs.shape rhs.shape
  let sameType := lhs.dtype.code == rhs.dtype.code && lhs.dtype.lanes == rhs.dtype.lanes &&
    lhs.dtype.bits == rhs.dtype.bits
  let sameData := lhs.data.take (getDataSize lhs) == rhs.data.take (getDataSize lhs)
  pure (dims ++ [.prim (sameType && (!compareData || sameData)) none])

/-- The reflection table on tensors, reduced by `NDArrayContainerTrait::SEqualReduce`. -/
def tensorRegistry : Registry TensorNode where
  typeIndex _ := 0
  reduce _ l r :=
    match ndarrayEqual l r true with
    | .ok checks => checks
    | .error _ => []

/-- Modelled from the spec: one container, or the same shape, dtype and packed data. -/
def TensorEq (l r : TensorNode) : Prop :=
  l.addr = r.addr ∨ (l.shape = r.shape ∧ l.dtype = r.dtype ∧
    l.data.take (getDataSize l) = r.data.take (getDataSize r))

instance (l r : TensorNode) : Decidable (TensorEq l r) :=
  inferInstanceAs (Decidable (_ ∨ _))

section Preconditions

variable {O : Type} {l r : TensorNode} {compareData : Bool}

/-- `NDArrayEqual` stops at an `ICHECK` exactly when a tensor is off the CPU or not contiguous. -/
theorem ndarrayEqual_error_iff (hne : l.addr ≠ r.addr) :
    (∃ e, (ndarrayEqual l r compareData : Except Fatal (List (Check O))) = .error e) ↔
      ¬(l.deviceType = kDLCPU ∧ r.deviceType = kDLCPU ∧ l.contiguous ∧ r.contiguous) := by
  by_cases hl : l.deviceType = kDLCPU <;> by_cases hr : r.deviceType = kDLCPU <;>
    cases hlc : l.contiguous <;> cases hrc : r.contiguous <;>
    simp [ndarrayEqual, hne, hl, hr, hlc, hrc]
  all_goals split <;> simp

theorem ndarrayEqual_error {e : Fatal}
    (h : (ndarrayEqual l r compareData : Except Fatal (List (Check O))) = .error e) :
    (e = .icheck "lhs->device.device_type == kDLCPU" ∧ l.deviceType ≠ kDLCPU) ∨
      (e = .icheck "rhs->device.device_type == kDLCPU" ∧ r.deviceType ≠ kDLCPU) ∨
      (e = .icheck "runtime::IsContiguous(*lhs)" ∧ l.contiguous = false) ∨
      (e = .icheck "runtime::IsContiguous(*rhs)" ∧ r.contiguous = false) := by
  by_cases hne : l.addr = r.addr
  · simp [ndarrayEqual, hne] at h
  by_cases hl : l.deviceType = kDLCPU <;> by_cases hr : r.deviceType = kDLCPU <;>
    cases hlc : l.contiguous <;> cases hrc : r.contiguous <;>
    simp [ndarrayEqual, hne, hl, hr, hlc, hrc] at h ⊢ <;>
    first | (subst h; simp) | (split at h <;> cases h)

end Preconditions

section Checks

variable {O : Type} [DecidableEq O] (R : Registry O) (cfg : Config)

theorem runChecks_prims (mfv : Bool) (cur : Option ObjectPathPair) (site : Option PathSource)
    (rest : List (Check O)) (s : Handler O) :
    ∀ eqs : List Bool, runChecks R cfg mfv cur (eqs.map (fun b => .prim b site) ++ rest) s =
      if eqs.all id then runChecks R cfg mfv cur rest s else
        .ok (false, match cur, site with
          | some c, some st => s.recordMismatch (st.resolve c)
          | _, _ => s)
  | [] => rfl
  | b :: eqs => by
    cases b
    · rcases cur with _ | c <;> rcases site with _ | st <;> rfl
    · simp [runChecks, runCheck, runChecks_prims mfv cur site rest s eqs]

end Checks

theorem all_zipWith_beq : ∀ {a b : List UInt64}, a.length = b.length →
    ((List.zipWith (· == ·) a b).all id = true ↔ a = b)
  | [], [], _ => by simp
  | x :: a, y :: b, h => by simp [all_zipWith_beq (Nat.succ.inj h)]

theorem dtype_fields_eq (a b : DLDataType) :
    (decide (a.code = b.code) && decide (a.lanes = b.lanes) && decide (a.bits = b.bits)) =
      decide (a = b) := by
  cases a; cases b
  rw [Bool.eq_iff_iff]
  simp only [Bool.and_eq_true, decide_eq_true_eq, DLDataType.mk.injEq]
  tauto

theorem getDataSize_congr {l r : TensorNode} (hs : l.shape = r.shape) (hd : l.dtype = r.dtype) :
    getDataSize l = getDataSize r := by
  simp only [getDataSize, hs, hd]

@[simp] theorem tensorRegistry_typeIndex (t : TensorNode) : tensorRegistry.typeIndex t = 0 := rfl

section Tensors

variable {l r : TensorNode} (hl : l.deviceType = kDLCPU ∧ l.contiguous = true)
  (hr : r.deviceType = kDLCPU ∧ r.contiguous = true)
include hl hr

theorem tensorRegistry_reduce (hne : l.addr ≠ r.addr) (mfv : Bool) :
    tensorRegistry.reduce mfv l r =
      if l.shape.length ≠ r.shape.length then [.prim false none] else
        (List.zipWith (· == ·) l.shape r.shape).map (fun b => .prim b (some (.attrs none none))) ++
          [.prim (l.dtype = r.dtype ∧ l.data.take (getDataSize l) = r.data.take (getDataSize l))
            none] := by
  by_cases hlen : l.shape.length = r.shape.length
  · simp [tensorRegistry, ndarrayEqual, hne, hl.1, hr.1, hl.2, hr.2, hlen, List.map_zipWith,
      compareAttributeValues, Bool.beq_eq_decide_eq, dtype_fields_eq]
  · simp [tensorRegistry, ndarrayEqual, hne, hl.1, hr.1, hl.2, hr.2, hlen]

/-- The reducer on two CPU tensors passes exactly when they are equal, recording what differs. -/
theorem runChecks_tensor (hne : l.addr ≠ r.addr) (cfg : Config) (mfv : Bool)
    (cur : Option ObjectPathPair) (s : Handler TensorNode) :
    runChecks tensorRegistry cfg mfv cur (tensorRegistry.reduce mfv l r) s =
      .ok (decide (TensorEq l r),
        if l.shape.length = r.shape.length ∧ l.shape ≠ r.shape then
          (match cur with
            | some c => s.recordMismatch ⟨c.lhsPath.attr none, c.rhsPath.attr none⟩
            | none => s)
        else s) := by
  rw [tensorRegistry_reduce hl hr hne]
  by_cases hlen : l.shape.length = r.shape.length
  · rw [if_neg (not_not.2 hlen), runChecks_prims]
    by_cases hs : l.shape = r.shape
    · -- every dimension passes; the dtype and data check decides
      have hlast : ∀ b : Bool,
          runChecks tensorRegistry cfg mfv cur [.prim b none] s = .ok (b, s) := by
        intro b; cases b <;> rcases cur with _ | c <;> rfl
      have hiff : l.dtype = r.dtype ∧ l.data.take (getDataSize l) = r.data.take (getDataSize l) ↔
          TensorEq l r := by
        refine ⟨fun ⟨hd, h⟩ => .inr ⟨hs, hd, getDataSize_congr hs hd ▸ h⟩, fun h => ?_⟩
        rcases h with h | ⟨-, hd, h⟩
        · exact absurd h hne
        · exact ⟨hd, getDataSize_congr hs hd ▸ h⟩
      rw [if_pos ((all_zipWith_beq hlen).2 hs), hlast, decide_eq_decide.2 hiff,
        if_neg (by simp [hs])]
    · -- the first dimension that differs records its paths
      have hne' : ¬TensorEq l r := fun h => h.elim hne fun h => hs h.1
      rw [if_neg (fun h => hs ((all_zipWith_beq hlen).1 h)), if_pos ⟨hlen, hs⟩,
        decide_eq_false hne']
      rcases cur with _ | c <;> rfl
  · have hne' : ¬TensorEq l r := fun h => h.elim hne fun h => hlen (congrArg List.length h.1)
    simp only [if_pos hlen, hlen, false_and, if_false, decide_eq_false hne']
    rcases cur with _ | c <;> rfl

omit hl hr in
theorem runChecks_tensor_same (h : l.addr = r.addr) (cfg : Config) (mfv : Bool)
    (cur : Option ObjectPathPair) (s : Handler TensorNode) :
    runChecks tensorRegistry cfg mfv cur (tensorRegistry.reduce mfv l r) s = .ok (true, s) := by
  simp [tensorRegistry, ndarrayEqual, h, runChecks]

/-- `Equal` on two CPU tensors returns whether they are equal, recording where shapes differ. -/
theorem equal_tensor (cfg : Config) (hA : cfg.assertMode = false) (mfv : Bool) :
    ∃ s', equal tensorRegistry cfg 3 .init (.obj l) (.obj r) mfv = .stop (decide (TensorEq l r)) s' ∧
      s'.firstMismatch = if cfg.tracing ∧ ¬TensorEq l r then
        some (if l.shape.length = r.shape.length ∧ l.shape ≠ r.shape then ⟨[.missing], [.missing]⟩
          else ⟨[], []⟩) else none := by
  rw [@equal_init_obj _ _ tensorRegistry cfg 3 l r rfl mfv]
  obtain ⟨am, tr, df⟩ := cfg
  obtain rfl : am = false := hA
  by_cases haddr : l.addr = r.addr
  · have heq : TensorEq l r := .inl haddr
    cases tr <;>
      simp [runTasks, step, Handler.root, dispatchSEqualReduce, mapResult,
        runChecks_tensor_same haddr, checkResult, heq]
  by_cases heq : TensorEq l r
  · have hs : l.shape = r.shape := (heq.resolve_left haddr).1
    cases tr <;>
      simp [runTasks, step, Handler.root, dispatchSEqualReduce, mapResult,
        runChecks_tensor hl hr haddr, checkResult, heq, hs]
  · by_cases hmis : l.shape.length = r.shape.length ∧ l.shape ≠ r.shape <;> cases tr <;>
      simp [runTasks, step, Handler.root, dispatchSEqualReduce, mapResult,
        runChecks_tensor hl hr haddr, checkResult, heq, hmis, Handler.recordMismatch,
        ObjectPath.attr]

end Tensors

theorem equal_tensor_shapes :
    ((⟨1, 1, true, [2], ⟨2, 32, 1⟩, List.replicate 8 0⟩ : TensorNode).deviceType = kDLCPU ∧
      (⟨1, 1, true, [2], ⟨2, 32, 1⟩, List.replicate 8 0⟩ : TensorNode).contiguous = true) ∧
    ((⟨2, 1, true, [3], ⟨2, 32, 1⟩, List.replicate 12 0⟩ : TensorNode).deviceType = kDLCPU ∧
      (⟨2, 1, true, [3], ⟨2, 32, 1⟩, List.replicate 12 0⟩ : TensorNode).contiguous = true) ∧
    (⟨false, true, true⟩ : Config).assertMode = false ∧
    ∃ s', equal tensorRegistry ⟨false, true, true⟩ 3 .init
        (.obj ⟨1, 1, true, [2], ⟨2, 32, 1⟩, List.replicate 8 0⟩)
        (.obj ⟨2, 1, true, [3], ⟨2, 32, 1⟩, List.replicate 12 0⟩) false =
        .stop (decide (TensorEq ⟨1, 1, true, [2], ⟨2, 32, 1⟩, List.replicate 8 0⟩
          ⟨2, 1, true, [3], ⟨2, 32, 1⟩, List.replicate 12 0⟩)) s' ∧
      s'.firstMismatch = if (⟨false, true, true⟩ : Config).tracing ∧
          ¬TensorEq ⟨1, 1, true, [2], ⟨2, 32, 1⟩, List.replicate 8 0⟩
            ⟨2, 1, true, [3], ⟨2, 32, 1⟩, List.replicate 12 0⟩ then
        some (if [(2 : UInt64)].length = [(3 : UInt64)].length ∧ [(2 : UInt64)] ≠ [3] then
          ⟨[.missing], [.missing]⟩ else ⟨[], []⟩) else none :=
  ⟨⟨rfl, rfl⟩, ⟨rfl, rfl⟩, rfl, equal_tensor ⟨rfl, rfl⟩ ⟨rfl, rfl⟩ _ rfl false⟩

end Tvm.SEqual
