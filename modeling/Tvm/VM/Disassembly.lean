import Tvm.VM.RoundTrip

namespace Tvm.VM

inductive Opcode where
  | call
  | ret
  | goto
  | «if»
  deriving DecidableEq, Repr

inductive ArgKind where
  | register
  | immediate
  | constIdx
  | funcIdx
  deriving DecidableEq, Repr

/-- The bytecode constants the disassemblers test: opcodes, argument kinds and sentinels. -/
structure Bytecode where
  opcode : UInt64 → Option Opcode
  opcodeNumber : UInt64 → Int
  argKind : UInt64 → Option ArgKind
  argKindNumber : UInt64 → Int
  argValue : UInt64 → UInt64
  kVoidRegister : UInt64
  kVMRegister : UInt64
  kPackedFunc : UInt32
  kVMFunc : UInt32
  kVMTIRFunc : UInt32
  funcKinds_nodup : [kPackedFunc, kVMFunc, kVMTIRFunc].Nodup

/-- How a disassembly stops without its text. -/
inductive DisasmError where
  /-- `LOG(FATAL)`, with the text it streams. -/
  | fatal (msg : String)
  /-- A failed `ICHECK`, with its condition. -/
  | checkFailed (cond : String)
  /-- `v[i]` past the end of the vector `v`, which nothing checks. -/
  | outOfBounds (vector : String) (index : Nat)
  deriving DecidableEq, Repr

/-- `Instruction` as `GetInstruction` fills it; a `Call` keeps the position of its arguments. -/
inductive Instruction where
  | call (dst funcIdx numArgs : UInt64) (args : Nat)
  | ret (result : UInt64)
  | goto (pcOffset : UInt64)
  | «if» (cond falseOffset : UInt64)
  deriving DecidableEq, Repr

def readAt (vector : String) (v : List UInt64) (i : Nat) : Except DisasmError UInt64 :=
  vectorAt (.outOfBounds vector) v i

def signed (v : UInt64) : Int :=
  if v.toNat < 2 ^ 63 then v.toNat else (v.toNat : Int) - ((2 ^ 64 : Nat) : Int)

/-- The `int` an `int64_t` converts to: its low 32 bits. -/
def signed32 (v : UInt64) : Int :=
  let low : Nat := v.toNat % 2 ^ 32
  if low < 2 ^ 31 then (low : Int) else (low : Int) - ((2 ^ 32 : Nat) : Int)

/-- `std::setw(n) << std::left << s`. -/
def padRight (n : Nat) (s : String) : String := s.pushn ' ' (n - s.length)

section Disassembly

variable (bc : Bytecode) (e : VMExecutable)

/-- `VMExecutable::GetInstruction(i)`: the opcode at `instr_offset[i]`, then its fields. -/
def getInstruction (i : Nat) : Except DisasmError Instruction := do
  let offset ← readAt "instr_offset" e.instrOffset i
  let word ← readAt "instr_data" e.instrData offset.toNat
  match bc.opcode word with
  | some .call =>
    let dst ← readAt "instr_data" e.instrData (offset + 1).toNat
    let funcIdx ← readAt "instr_data" e.instrData (offset + 2).toNat
    let numArgs ← readAt "instr_data" e.instrData (offset + 3).toNat
    pure (.call dst funcIdx numArgs (offset + 4).toNat)
  | some .ret => return .ret (← readAt "instr_data" e.instrData (offset + 1).toNat)
  | some .goto => return .goto (← readAt "instr_data" e.instrData (offset + 1).toNat)
  | some .if =>
    let cond ← readAt "instr_data" e.instrData (offset + 1).toNat
    let falseOffset ← readAt "instr_data" e.instrData (offset + 2).toNat
    pure (.if cond falseOffset)
  | none => throw (.fatal ("should never hit this case: " ++ toString (bc.opcodeNumber word)))

/-- `StrJoin(instr.args, 0, cnt, delim, repr)` over the argument words from position `first`. -/
def strJoin (first : Nat) (cnt : Int) (delim : String)
    (repr : UInt64 → Except DisasmError String) : Except DisasmError String := do
  if cnt = 0 then return ""
  let head ← repr (← readAt "instr_data" e.instrData first)
  let tail ← (List.range (cnt.toNat - 1)).mapM fun i => do
    return delim ++ (← repr (← readAt "instr_data" e.instrData (first + i + 1)))
  pure (head ++ String.join tail)

def regNameToStr (reg : UInt64) : String :=
  if reg = bc.kVoidRegister then "%void"
  else if reg = bc.kVMRegister then "%vm"
  else "%" ++ toString (signed reg)

/-- The `get_func_name` lambdas: a known function's name in `quote`s, else `unknown_func_index`. -/
def getFuncName (quote scope : String) (index : UInt64) : String :=
  if h : index.toNat < e.funcTable.length then quote ++ textOf e.funcTable[index.toNat].name ++ quote
  else scope ++ "unknown_func_index(" ++ toString (signed index) ++ ")"

/-- `instr_to_str` of `AsText`. -/
def argToText (arg : UInt64) : Except DisasmError String :=
  match bc.argKind arg with
  | some .register => pure (regNameToStr bc (bc.argValue arg))
  | some .immediate => pure ("i" ++ toString (signed (bc.argValue arg)))
  | some .constIdx => pure ("c[" ++ toString (signed (bc.argValue arg)) ++ "]")
  | some .funcIdx => pure ("f[" ++ getFuncName e "" "" (bc.argValue arg) ++ "]")
  | none => throw (.fatal ("Wrong instruction kind: " ++ toString (bc.argKindNumber arg)))

/-- `arg_to_py_str` of `AsPython`. -/
def argToPython (arg : UInt64) : Except DisasmError String :=
  match bc.argKind arg with
  | some .register =>
    pure (if bc.argValue arg = bc.kVMRegister then "ib.r(vm)"
      else "ib.r(" ++ toString (signed (bc.argValue arg)) ++ ")")
  | some .immediate => pure ("ib.imm(" ++ toString (signed (bc.argValue arg)) ++ ")")
  | some .constIdx => pure ("ib.c(" ++ toString (signed (bc.argValue arg)) ++ ")")
  | some .funcIdx => pure ("ib.f(" ++ getFuncName e "\"" "ib." (bc.argValue arg) ++ ")")
  | none => throw (.fatal ("Wrong instruction kind: " ++ toString (bc.argKindNumber arg)))

/-- One instruction line of `AsText`, after the two spaces it writes first. -/
def instrToText : Instruction → Except DisasmError String
  | .call dst funcIdx numArgs args => do
    let argText ← strJoin e args (signed32 numArgs) ", " (argToText bc e)
    pure ("  " ++ padRight 6 "call" ++ padRight 16 (getFuncName e "" "" funcIdx) ++ " in: " ++
      padRight 12 argText ++ " dst: " ++ regNameToStr bc dst ++ "\n")
  | .ret result => pure ("  " ++ padRight 6 "ret " ++ regNameToStr bc result ++ "\n")
  | .goto pcOffset => pure ("  " ++ padRight 6 "goto" ++ toString (signed pcOffset) ++ "\n")
  | .if cond falseOffset =>
    pure ("  " ++ padRight 6 "If" ++ regNameToStr bc cond ++ ", " ++
      toString (signed falseOffset) ++ "\n")

def instrToPython : Instruction → Except DisasmError String
  | .call dst funcIdx numArgs args => do
    let argText ← strJoin e args (signed32 numArgs) ", " (argToPython bc e)
    pure ("    ib.emit_call(" ++ getFuncName e "\"" "ib." funcIdx ++ ", args=[" ++ argText ++ "]" ++
      (if dst ≠ bc.kVoidRegister then ", dst=ib.r(" ++ toString (signed dst) ++ ")" else "") ++
      ")\n")
  | .ret result => pure ("    ib.emit_ret(ib.r(" ++ toString (signed result) ++ "))\n")
  | .goto pcOffset => pure ("    ib.emit_goto(" ++ toString (signed pcOffset) ++ ")\n")
  | .if cond falseOffset =>
    pure ("    ib.emit_if(ib.r(" ++ toString (signed cond) ++ "), " ++
      toString (signed falseOffset) ++ ")\n")

structure Dialect where
  preamble : String
  packedFunc : VMFuncInfo → String
  tirFunc : VMFuncInfo → String
  header : VMFuncInfo → String
  footer : String
  instr : Instruction → Except DisasmError String

/-- The loop `AsText` and `AsPython` share over the function table. -/
def disassemble (d : Dialect) : Except DisasmError String := do
  let funcs ← e.funcTable.mapM fun f =>
    if f.kind = bc.kPackedFunc then pure (d.packedFunc f)
    else if f.kind = bc.kVMTIRFunc then pure (d.tirFunc f)
    else if f.kind ≠ bc.kVMFunc then
      throw (.checkFailed "gfunc.kind == VMFuncInfo::FuncKind::kVMFunc")
    else do
      let lines ← (List.range' f.startInstr.toNat (f.endInstr.toNat - f.startInstr.toNat)).mapM
        fun idx => do d.instr (← getInstruction bc e idx)
      pure (d.header f ++ String.join lines ++ d.footer)
  pure (d.preamble ++ String.join funcs)

def asText : Except DisasmError String :=
  disassemble bc e
    { preamble := ""
      packedFunc := fun f => "@" ++ textOf f.name ++ " packed_func;\n\n"
      tirFunc := fun f =>
        "@" ++ textOf f.name ++ " num_inputs=" ++ toString (signed f.numArgs) ++ " vm_tir_func;\n\n"
      header := fun f => "@" ++ textOf f.name ++ ":\n"
      footer := "\n"
      instr := instrToText bc e }

def asPython : Except DisasmError String :=
  disassemble bc e
    { preamble := "ib = rx.Builder()\n"
      packedFunc := fun _ => ""
      tirFunc := fun _ => ""
      header := fun f =>
        "with ib.function(\"" ++ textOf f.name ++ "\", num_inputs=" ++ toString (signed f.numArgs) ++
          "):\n"
      footer := ""
      instr := instrToPython bc e }

theorem readAt_of_le {vector : String} {v : List UInt64} {i : Nat} (h : v.length ≤ i) :
    readAt vector v i = .error (.outOfBounds vector i) :=
  vectorAt_of_le h

theorem getInstruction_of_le {i : Nat} (h : e.instrOffset.length ≤ i) :
    getInstruction bc e i = .error (.outOfBounds "instr_offset" i) := by
  rw [getInstruction, readAt_of_le h]
  rfl

/-- The disassemblers read `instr_offset[start_instr]` before anything checks it. -/
theorem disassemble_outOfBounds {d : Dialect} {f : VMFuncInfo} {fs : List VMFuncInfo}
    (htable : e.funcTable = f :: fs) (hkind : f.kind = bc.kVMFunc)
    (hrange : f.startInstr.toNat < f.endInstr.toNat)
    (hoff : e.instrOffset.length ≤ f.startInstr.toNat) :
    disassemble bc e d = .error (.outOfBounds "instr_offset" f.startInstr.toNat) := by
  have hd := bc.funcKinds_nodup
  simp only [List.nodup_cons, List.mem_cons, List.mem_singleton, not_or] at hd
  have hrange' : List.range' f.startInstr.toNat (f.endInstr.toNat - f.startInstr.toNat) =
      f.startInstr.toNat :: List.range' (f.startInstr.toNat + 1)
        (f.endInstr.toNat - f.startInstr.toNat - 1) := by
    rw [show f.endInstr.toNat - f.startInstr.toNat =
      f.endInstr.toNat - f.startInstr.toNat - 1 + 1 by omega]
    rfl
  simp only [disassemble, htable, List.mapM_cons, hkind, Ne.symm hd.1.1, hd.2.1.1,
    if_false, ne_eq, not_true_eq_false, hrange', getInstruction_of_le bc e hoff, except_error_bind]

end Disassembly

/-- Both disassemblers read `instr_offset[0]` of an empty vector on an executable that loaded. -/
theorem asText_loadFromBinary_outOfBounds (bc : Bytecode) (tags : TypeIndex) :
    ∃ e, (loadFromBinary tags [48, 46, 49]).run (saveToBinary tags [48, 46, 49]
        ⟨[], [⟨bc.kVMFunc, [109, 97, 105, 110], 0, 1, 0, 0, []⟩], [], [], []⟩) = .ok (e, []) ∧
      asText bc e = .error (.outOfBounds "instr_offset" 0) ∧
      asPython bc e = .error (.outOfBounds "instr_offset" 0) := by
  have hfit : (saveSections tags [48, 46, 49]
      ⟨[], [⟨bc.kVMFunc, [109, 97, 105, 110], 0, 1, 0, 0, []⟩], [], [], []⟩).length < 2 ^ 64 := by
    simp [saveSections, saveHeader, saveGlobalSection, saveConstantSection, saveCodeSection,
      VMFuncInfo.save]
  have hload := loadFromBinary_saveToBinary_append tags [48, 46, 49] _ hfit []
  rw [List.append_nil] at hload
  refine ⟨_, hload, ?_, ?_⟩ <;>
    exact @disassemble_outOfBounds bc _ _ ⟨bc.kVMFunc, [109, 97, 105, 110], 0, 1, 0, 0, []⟩ [] rfl
      rfl Nat.one_pos (Nat.zero_le _)

end Tvm.VM
