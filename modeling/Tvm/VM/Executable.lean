import Tvm.VM.Stream

namespace Tvm.VM

def kTVMVMBytecodeMagic : UInt64 := 0xD225DE2F4214151D

structure DLDataType where
  code : UInt8
  bits : UInt8
  lanes : UInt16
  deriving DecidableEq, Repr, Inhabited

def writeDLDataType (t : DLDataType) : Bytes :=
  writeU8 t.code ++ writeU8 t.bits ++ writeU16 t.lanes

/-- `Handler<DLDataType>::Read`: the three fields in order, stopping at the first short read. -/
def readDLDataType : Load (Bool × DLDataType) := do
  let (ok, code) ← readU8
  if !ok then return (false, ⟨code, 0, 0⟩)
  let (ok, bits) ← readU8
  if !ok then return (false, ⟨code, bits, 0⟩)
  let (ok, lanes) ← readU16
  pure (ok, ⟨code, bits, lanes⟩)

/-- The packed byte size of a tensor, in 64-bit arithmetic. -/
def dataByteSize (shape : List UInt64) (dtype : DLDataType) : UInt64 :=
  UInt64.ofNat ((dtype.bits.toNat + 7) / 8) * shape.foldl (· * ·) 1

/-- Modelled from the spec: a CPU tensor, its data exactly as long as its shape and dtype say. -/
structure NDArray where
  shape : List UInt64
  dtype : DLDataType
  data : Bytes
  data_length : data.length = (dataByteSize shape dtype).toNat

def kDLCPU : UInt32 := 1

/-- Modelled from the spec: `SaveDLTensor` writes device type, dtype, shape and data. -/
def saveDLTensor (t : NDArray) : Bytes :=
  writeU32 kDLCPU ++ writeDLDataType t.dtype ++ writeVector writeU64 t.shape ++ writeString t.data

/-- Modelled from the spec: `NDArray::Load`, which accepts only a CPU tensor of the right size. -/
def loadNDArray : Load NDArray := do
  let (ok, device) ← readU32
  unless ok do throw (.invalidTensor "Invalid DLTensor file format")
  let (ok, dtype) ← readDLDataType
  unless ok do throw (.invalidTensor "Invalid DLTensor file format")
  unless device == kDLCPU do throw (.invalidTensor "Invalid DLTensor device: can only save as CPU tensor")
  let (ok, shape) ← readVector readU64
  unless ok do throw (.invalidTensor "Invalid DLTensor file format")
  let (ok, data) ← readString
  unless ok do throw (.invalidTensor "Invalid DLTensor file format")
  if h : data.length = (dataByteSize shape dtype).toNat then
    pure ⟨shape, dtype, data, h⟩
  else
    throw (.invalidTensor "Invalid DLTensor file format")

/-- An entry of the constant pool; integers and doubles are kept by their 64 bits. -/
inductive Constant where
  | ndarray (t : NDArray)
  | shape (dims : List UInt64)
  | str (s : Bytes)
  | int (v : UInt64)
  | float (bits : UInt64)
  | dataType (t : DLDataType)

/-- The `ffi::TypeIndex` values that tag the constant section's entries. -/
structure TypeIndex where
  kTVMFFINDArray : UInt32
  kTVMFFIShape : UInt32
  kTVMFFIStr : UInt32
  kTVMFFIInt : UInt32
  kTVMFFIFloat : UInt32
  kTVMFFIDataType : UInt32
  nodup : [kTVMFFINDArray, kTVMFFIShape, kTVMFFIStr, kTVMFFIInt, kTVMFFIFloat,
    kTVMFFIDataType].Nodup

/-- `VMFuncInfo`; the kind is kept as the `int32_t` it is saved as, so any value round-trips. -/
structure VMFuncInfo where
  kind : UInt32
  name : Bytes
  startInstr : UInt64
  endInstr : UInt64
  numArgs : UInt64
  registerFileSize : UInt64
  paramNames : List Bytes
  deriving DecidableEq, Repr, Inhabited

/-- `VMExecutable`; `funcMap` lists its entries newest first. -/
structure VMExecutable where
  constants : List Constant
  funcTable : List VMFuncInfo
  funcMap : List (Bytes × UInt64)
  instrOffset : List UInt64
  instrData : List UInt64

/-- A 64-bit `size_t`, as `Stream::Write` stores it on this host. -/
def writeSizeT (n : Nat) : Bytes := writeU64 (UInt64.ofNat n)

section Codec

variable (tags : TypeIndex) (version : Bytes)

def saveHeader : Bytes := writeU64 kTVMVMBytecodeMagic ++ writeString version

def VMFuncInfo.save (f : VMFuncInfo) : Bytes :=
  writeU32 f.kind ++ writeString f.name ++ writeU64 f.startInstr ++ writeU64 f.endInstr ++
    writeU64 f.numArgs ++ writeU64 f.registerFileSize ++ writeVector writeString f.paramNames

def saveGlobalSection (e : VMExecutable) : Bytes := writeVector VMFuncInfo.save e.funcTable

def saveConstant : Constant → Bytes
  | .ndarray t => writeU32 tags.kTVMFFINDArray ++ saveDLTensor t
  | .shape dims => writeU32 tags.kTVMFFIShape ++ writeSizeT dims.length ++ dims.flatMap writeU64
  | .str s => writeU32 tags.kTVMFFIStr ++ writeSizeT s.length ++ s.flatMap writeU8
  | .int v => writeU32 tags.kTVMFFIInt ++ writeU64 v
  | .float v => writeU32 tags.kTVMFFIFloat ++ writeU64 v
  | .dataType t => writeU32 tags.kTVMFFIDataType ++ writeDLDataType t

def saveConstantSection (e : VMExecutable) : Bytes :=
  writeU64 (UInt64.ofNat e.constants.length) ++ e.constants.flatMap (saveConstant tags)

def saveCodeSection (e : VMExecutable) : Bytes :=
  writeVector writeU64 e.instrOffset ++ writeVector writeU64 e.instrData

/-- The inner string `SaveToBinary` fills before writing it out. -/
def saveSections (e : VMExecutable) : Bytes :=
  saveHeader version ++ saveGlobalSection e ++ saveConstantSection tags e ++ saveCodeSection e

def saveToBinary (e : VMExecutable) : Bytes := writeString (saveSections tags version e)

def streamCheck (val : Bool) (sectionName : String) : Load Unit :=
  unless val do throw (.invalidFormat sectionName)

@[simp] theorem streamCheck_true (sectionName : String) : streamCheck true sectionName = pure () :=
  rfl

/-- `LoadHeader` on a host whose `std::string::resize` grants at most `maxSize` bytes. -/
def loadHeaderUpTo (maxSize : Nat) : Load Unit := do
  let (ok, header) ← readU64
  streamCheck ok "header"
  streamCheck (header == kTVMVMBytecodeMagic) "header"
  let (ok, v) ← readStringUpTo maxSize
  streamCheck ok "version"
  streamCheck (v == version) "version"

def loadHeader : Load Unit := loadHeaderUpTo version (2 ^ 64)

theorem loadHeader_eq : loadHeader version = (do
    let (ok, header) ← readU64
    streamCheck ok "header"
    streamCheck (header == kTVMVMBytecodeMagic) "header"
    let (ok, v) ← readString
    streamCheck ok "version"
    streamCheck (v == version) "version") :=
  rfl

def VMFuncInfo.load : Load (Bool × VMFuncInfo) := do
  let (ok, kind) ← readU32
  if !ok then return (false, default)
  let (ok, name) ← readString
  if !ok then return (false, default)
  let (ok, startInstr) ← readU64
  if !ok then return (false, default)
  let (ok, endInstr) ← readU64
  if !ok then return (false, default)
  let (ok, numArgs) ← readU64
  if !ok then return (false, default)
  let (ok, registerFileSize) ← readU64
  if !ok then return (false, default)
  let (ok, paramNames) ← readVector readString
  if !ok then return (false, default)
  pure (true, ⟨kind, name, startInstr, endInstr, numArgs, registerFileSize, paramNames⟩)

/-- `func_map[func_table[i].name] = i` for each `i` in order, newest entry first. -/
def buildFuncMap (table : List VMFuncInfo) : List (Bytes × UInt64) :=
  (table.enum.map fun (i, f) => (f.name, UInt64.ofNat i)).reverse

def loadGlobalSection : Load (List VMFuncInfo) := do
  let (ok, table) ← readVector VMFuncInfo.load
  streamCheck ok "Global Section"
  pure table

/-- `for (i = 0; i < n; ++i) strm->Read(&data[i]);`, every result ignored. -/
def readEach {α : Type} (read : Load (Bool × α)) : Nat → Load (List α)
  | 0 => pure []
  | n + 1 => do
    let (_, x) ← read
    let xs ← readEach read n
    pure (x :: xs)

/-- One iteration of `LoadConstantSection`'s loop; only the read of the type index is checked. -/
def loadConstant : Load Constant := do
  let (n, constantType) ← readLE 4
  streamCheck (n != 0) "constant"
  let constantType := UInt32.ofNat constantType
  if constantType == tags.kTVMFFINDArray then
    return .ndarray (← loadNDArray)
  else if constantType == tags.kTVMFFIShape then
    let (_, size) ← readU64
    return .shape (← readEach readU64 size.toNat)
  else if constantType == tags.kTVMFFIDataType then
    let (_, dtype) ← readDLDataType
    return .dataType dtype
  else if constantType == tags.kTVMFFIStr then
    let (_, size) ← readU64
    return .str (← readEach readU8 size.toNat)
  else if constantType == tags.kTVMFFIInt then
    let (_, v) ← readU64
    return .int v
  else if constantType == tags.kTVMFFIFloat then
    let (_, v) ← readU64
    return .float v
  else
    throw (.unsupportedConstant constantType)

def loadConstants : Nat → Load (List Constant)
  | 0 => pure []
  | n + 1 => do
    let c ← loadConstant tags
    let cs ← loadConstants n
    pure (c :: cs)

def loadConstantSection : Load (List Constant) := do
  let (n, sz) ← readLE 8
  streamCheck (n != 0) "constant"
  loadConstants tags sz

def loadCodeSection : Load (List UInt64 × List UInt64) := do
  let (ok, instrOffset) ← readVector readU64
  streamCheck ok "instr offset"
  let (ok, instrData) ← readVector readU64
  streamCheck ok "instr data"
  pure (instrOffset, instrData)

/-- The sections, read from the inner stream over the string `LoadFromBinary` reads. -/
def loadSections : Load VMExecutable := do
  loadHeader version
  let funcTable ← loadGlobalSection
  let constants ← loadConstantSection tags
  let (instrOffset, instrData) ← loadCodeSection
  pure ⟨constants, funcTable, buildFuncMap funcTable, instrOffset, instrData⟩

/-- `VMExecutable::LoadFromBinary` on a host whose `resize` grants at most `maxSize` bytes. -/
def loadFromBinaryUpTo (maxSize : Nat) : Load VMExecutable := do
  let (_, code) ← readStringUpTo maxSize
  StateT.lift ((loadSections tags version).run' code)

def loadFromBinary : Load VMExecutable := loadFromBinaryUpTo tags version (2 ^ 64)

theorem loadFromBinary_eq : loadFromBinary tags version = (do
    let (_, code) ← readString
    StateT.lift ((loadSections tags version).run' code)) :=
  rfl

end Codec

end Tvm.VM
