import Tvm.VM.Disassembly

namespace Tvm.VM

section Dialects

variable (bc : Bytecode) (e : VMExecutable)

theorem argToText_failsAlike (arg : UInt64) :
    FailsAlike (argToText bc e arg) (argToPython bc e arg) := by
  unfold argToText argToPython
  rcases bc.argKind arg with _ | ⟨_ | _ | _ | _⟩ <;> rfl

theorem strJoin_failsAlike {r₁ r₂ : UInt64 → Except DisasmError String}
    (h : ∀ w, FailsAlike (r₁ w) (r₂ w)) (first : Nat) (cnt : Int) (delim₁ delim₂ : String) :
    FailsAlike (strJoin e first cnt delim₁ r₁) (strJoin e first cnt delim₂ r₂) := by
  unfold strJoin
  split
  · exact FailsAlike.pure _ _
  · -- the head word, then the others, each read and rendered in turn
    simp only [pure_bind]
    refine FailsAlike.bind_left _ fun w => (h w).bind fun _ _ => ?_
    refine (FailsAlike.mapM (fun i => ?_) _).bind fun _ _ => FailsAlike.pure _ _
    exact FailsAlike.bind_left _ fun w => (h w).bind fun _ _ => FailsAlike.pure _ _

theorem instr_failsAlike (ins : Instruction) :
    FailsAlike (instrToText bc e ins) (instrToPython bc e ins) := by
  cases ins with
  | call dst funcIdx numArgs args =>
    exact (strJoin_failsAlike e (argToText_failsAlike bc e) _ _ _ _).bind fun _ _ =>
      FailsAlike.pure _ _
  | ret | goto | «if» => exact FailsAlike.pure _ _

theorem disassemble_failsAlike {d₁ d₂ : Dialect} (h : ∀ ins, FailsAlike (d₁.instr ins) (d₂.instr ins)) :
    FailsAlike (disassemble bc e d₁) (disassemble bc e d₂) := by
  refine (FailsAlike.mapM (fun f => ?_) _).bind fun _ _ => FailsAlike.pure _ _
  split
  · exact FailsAlike.pure _ _
  split
  · exact FailsAlike.pure _ _
  split
  · rfl
  · refine (FailsAlike.mapM (fun idx => ?_) _).bind fun _ _ => FailsAlike.pure _ _
    exact FailsAlike.bind_left _ fun ins => h ins

/-- `AsText` fails exactly when `AsPython` does, with the same error. -/
theorem asText_error_iff_asPython (err : DisasmError) :
    asText bc e = .error err ↔ asPython bc e = .error err :=
  (disassemble_failsAlike bc e (instr_failsAlike bc e)).error_iff err

end Dialects

section Acceptance

variable (bc : Bytecode) (e : VMExecutable)

/-- The positions `StrJoin` reads from `first`: `cnt` of them, one when `cnt` is negative. -/
def joinPositions (first : Nat) (cnt : Int) : List Nat :=
  if cnt = 0 then [] else List.range' first (max cnt.toNat 1)

/-- An instruction the printers can print: every argument word `StrJoin` reads has a kind. -/
def Instruction.Printable : Instruction → Prop
  | .call _ _ numArgs args => ∀ p ∈ joinPositions args (signed32 numArgs),
      ∃ h : p < e.instrData.length, (bc.argKind e.instrData[p]).isSome
  | _ => True

instance : (ins : Instruction) → Decidable (ins.Printable bc e)
  | .call _ _ numArgs args =>
    inferInstanceAs (Decidable (∀ p ∈ joinPositions args (signed32 numArgs), _))
  | .ret _ | .goto _ | .if _ _ => inferInstanceAs (Decidable True)

def instrPrintable (idx : Nat) : Bool :=
  match getInstruction bc e idx with
  | .ok ins => decide (ins.Printable bc e)
  | .error _ => false

/-- A function the disassemblers can print: packed, TIR, or VM with each instruction printable. -/
def VMFuncInfo.Printable (f : VMFuncInfo) : Prop :=
  f.kind = bc.kPackedFunc ∨ f.kind = bc.kVMTIRFunc ∨ (f.kind = bc.kVMFunc ∧
    ∀ idx ∈ List.range' f.startInstr.toNat (f.endInstr.toNat - f.startInstr.toNat),
      instrPrintable bc e idx)

instance (f : VMFuncInfo) : Decidable (f.Printable bc e) :=
  inferInstanceAs (Decidable (_ ∨ _ ∨ _ ∧ ∀ idx ∈ _, _))

theorem exists_readAt_eq_ok {vector : String} {v : List UInt64} {i : Nat}
    {P : UInt64 → Prop} :
    (∃ w, readAt vector v i = .ok w ∧ P w) ↔ ∃ h : i < v.length, P v[i] := by
  unfold readAt vectorAt
  split <;> simp [*]

theorem exists_argToText_eq_ok (w : UInt64) :
    (∃ s, argToText bc e w = .ok s) ↔ (bc.argKind w).isSome := by
  unfold argToText
  rcases bc.argKind w with _ | ⟨_ | _ | _ | _⟩ <;> simp

theorem exists_strJoin_eq_ok {repr : UInt64 → Except DisasmError String} {P : UInt64 → Prop}
    (hrepr : ∀ w, (∃ s, repr w = .ok s) ↔ P w) (first : Nat) (cnt : Int) (delim : String) :
    (∃ s, strJoin e first cnt delim repr = .ok s) ↔
      ∀ p ∈ joinPositions first cnt, ∃ h : p < e.instrData.length, P e.instrData[p] := by
  unfold strJoin joinPositions
  split
  · simp
  · have hQ : ∀ p, (∃ w, readAt "instr_data" e.instrData p = .ok w ∧ ∃ s, repr w = .ok s) ↔
        ∃ h : p < e.instrData.length, P e.instrData[p] := fun p => by
      simp only [hrepr]
      exact exists_readAt_eq_ok
    rw [show max cnt.toNat 1 = cnt.toNat - 1 + 1 by omega, List.range'_succ, List.forall_mem_cons,
      List.range'_eq_map_range, List.forall_mem_map]
    simp only [pure_bind, exists_bind_eq_ok, except_pure, Except.ok.injEq, exists_eq', and_true,
      exists_and_right, ← and_assoc, hQ, exists_mapM_eq_ok, Nat.add_right_comm first 1,
      exists_const, true_and]

theorem exists_instrToText_eq_ok (ins : Instruction) :
    (∃ s, instrToText bc e ins = .ok s) ↔ ins.Printable bc e := by
  cases ins with
  | call dst funcIdx numArgs args =>
    simp only [instrToText, exists_bind_eq_ok, except_pure, Except.ok.injEq, exists_eq', and_true,
      Instruction.Printable]
    exact exists_strJoin_eq_ok e (exists_argToText_eq_ok bc e) _ _ _
  | ret | goto | «if» => simp [instrToText, Instruction.Printable]

theorem exists_disassemble_eq_ok {d : Dialect}
    (hinstr : ∀ ins, (∃ s, d.instr ins = .ok s) ↔ ins.Printable bc e) :
    (∃ s, disassemble bc e d = .ok s) ↔ ∀ f ∈ e.funcTable, f.Printable bc e := by
  simp only [disassemble, exists_bind_eq_ok, except_pure, Except.ok.injEq, exists_eq', and_true,
    exists_mapM_eq_ok]
  refine forall₂_congr fun f _ => ?_
  unfold VMFuncInfo.Printable
  by_cases hp : f.kind = bc.kPackedFunc
  · exact iff_of_true ⟨_, by rw [if_pos hp]⟩ (.inl hp)
  by_cases ht : f.kind = bc.kVMTIRFunc
  · exact iff_of_true ⟨_, by rw [if_neg hp, if_pos ht]⟩ (.inr (.inl ht))
  rw [if_neg hp, if_neg ht, or_iff_right hp, or_iff_right ht]
  by_cases hv : f.kind = bc.kVMFunc
  · rw [if_neg (not_not.2 hv), and_iff_right hv]
    simp only [exists_bind_eq_ok, except_pure, Except.ok.injEq, exists_eq', and_true,
      exists_mapM_eq_ok]
    refine forall₂_congr fun idx _ => ?_
    unfold instrPrintable
    cases getInstruction bc e idx with
    | error err => simp
    | ok ins => simpa using hinstr ins
  · rw [if_pos hv]
    exact iff_of_false (by rintro ⟨_, h⟩; cases h) fun h => hv h.1

/-- `AsText` succeeds exactly when every function of the table is printable. -/
theorem asText_ok_iff : (∃ s, asText bc e = .ok s) ↔ ∀ f ∈ e.funcTable, f.Printable bc e :=
  exists_disassemble_eq_ok bc e (exists_instrToText_eq_ok bc e)

end Acceptance

end Tvm.VM
