import Mathlib.Algebra.BigOperators.Group.Finset
import Mathlib.Algebra.Ring.Defs
import Mathlib.Logic.Function.Basic

namespace Tvm.Contrib

variable {α : Type}

def rowMajorAt (trans : Bool) (A : Int → α) (ld : Int) (i k : Nat) : α :=
  if trans then A (k * ld + i) else A (i * ld + k)

def colMajorAt (trans : Bool) (A : Int → α) (ld : Int) (i k : Nat) : α :=
  if trans then A (k + i * ld) else A (i + k * ld)

theorem rowMajorAt_eq_colMajorAt (trans : Bool) (A : Int → α) (ld : Int) (i k : Nat) :
    rowMajorAt trans A ld i k = colMajorAt trans A ld k i := by
  cases trans <;> simp [rowMajorAt, colMajorAt, Int.add_comm]

variable [CommSemiring α]

/-- The reference GEMM loop: each `(o, n)` of `outer × inner` in turn gets `val o n + beta * C`. -/
def gemmLoop (outer inner : Nat) (pos : Nat → Nat → Int) (val : Nat → Nat → α) (beta : α)
    (C : Int → α) : Int → α :=
  (List.range outer).foldl (fun C o => (List.range inner).foldl
    (fun C n => Function.update C (pos o n) (val o n + beta * C (pos o n))) C) C

/-- `dnnl_status_t` values `dnnl_sgemm` can return. -/
inductive DnnlStatus where
  | invalidArguments
  deriving DecidableEq, Repr

/-- Modelled from the spec: `dnnl_sgemm`, the row-major `C := alpha * op(A) * op(B) + beta * C`. -/
def dnnlSgemm (transa transb : Char) (M N K : Nat) (alpha : α) (A : Int → α) (lda : Int)
    (B : Int → α) (ldb : Int) (beta : α) (C : Int → α) (ldc : Int) :
    Except DnnlStatus (Int → α) :=
  let decode : Char → Option Bool
    | 'N' | 'n' => some false
    | 'T' | 't' => some true
    | _ => none
  match decode transa, decode transb with
  | some ta, some tb =>
    .ok (gemmLoop M N (fun i j => i * ldc + j)
      (fun i j => alpha * ∑ k ∈ Finset.range K, rowMajorAt ta A lda i k * rowMajorAt tb B ldb k j)
      beta C)
  | _, _ => .error .invalidArguments

/-- Modelled from the spec: the column-major GEMM `C := alpha * op(A) * op(B) + beta * C`. -/
def blasGemm (ta tb : Bool) (M N K : Nat) (alpha : α) (A : Int → α) (lda : Int) (B : Int → α)
    (ldb : Int) (beta : α) (C : Int → α) (ldc : Int) : Int → α :=
  gemmLoop N M (fun j i => i + j * ldc)
    (fun j i => alpha * ∑ k ∈ Finset.range K, colMajorAt ta A lda i k * colMajorAt tb B ldb k j)
    beta C

def dnnlBooleanToTransposeChar (trans : Bool) : Char := if trans then 'T' else 'N'

/-- `DNNLSgemmOp::operator()`: `dnnl_sgemm` with the operands, `M`, `N` and the strides swapped. -/
def dnnlSgemmOp (ta tb : Bool) (M N K : Nat) (alpha : α) (A : Int → α) (lda : Int) (B : Int → α)
    (ldb : Int) (beta : α) (C : Int → α) (ldc : Int) : Except DnnlStatus (Int → α) :=
  dnnlSgemm (dnnlBooleanToTransposeChar tb) (dnnlBooleanToTransposeChar ta) N M K alpha B ldb A lda
    beta C ldc

theorem dnnlSgemm_transposeChar (ta tb : Bool) (M N K : Nat) (alpha : α) (A : Int → α)
    (lda : Int) (B : Int → α) (ldb : Int) (beta : α) (C : Int → α) (ldc : Int) :
    dnnlSgemm (dnnlBooleanToTransposeChar ta) (dnnlBooleanToTransposeChar tb) M N K alpha A lda B
        ldb beta C ldc =
      .ok (gemmLoop M N (fun i j => i * ldc + j)
        (fun i j => alpha * ∑ k ∈ Finset.range K, rowMajorAt ta A lda i k * rowMajorAt tb B ldb k j)
        beta C) := by
  cases ta <;> cases tb <;> rfl

/-- Swapping the operands makes the row-major routine the column-major GEMM the driver expects. -/
theorem dnnlSgemmOp_eq_blasGemm (ta tb : Bool) (M N K : Nat) (alpha : α) (A : Int → α)
    (lda : Int) (B : Int → α) (ldb : Int) (beta : α) (C : Int → α) (ldc : Int) :
    dnnlSgemmOp ta tb M N K alpha A lda B ldb beta C ldc =
      .ok (blasGemm ta tb M N K alpha A lda B ldb beta C ldc) := by
  have hpos : (fun i j : Nat => (i : Int) * ldc + j) = fun j i : Nat => (i : Int) + j * ldc := by
    funext i j; exact Int.add_comm _ _
  have hval : (fun i j => alpha * ∑ k ∈ Finset.range K,
        rowMajorAt tb B ldb i k * rowMajorAt ta A lda k j) =
      fun j i => alpha * ∑ k ∈ Finset.range K, colMajorAt ta A lda i k * colMajorAt tb B ldb k j := by
    funext i j
    simp only [rowMajorAt_eq_colMajorAt, mul_comm]
  rw [dnnlSgemmOp, dnnlSgemm_transposeChar, hpos, hval, blasGemm]

end Tvm.Contrib
