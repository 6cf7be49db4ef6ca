import Mathlib.Data.List.Basic
import Mathlib.Algebra.Group.Nat.Basic
import Tvm.Monad

namespace Tvm.VM

/-- The bytes of a `dmlc::Stream`, or the bytes after its read cursor. -/
abbrev Bytes := List UInt8

/-- The text of a `std::string`, one character per byte, as the printers write it. -/
def textOf (bs : Bytes) : String := String.mk (bs.map fun b => Char.ofNat b.toNat)

/-- The `w` little-endian bytes of `n` modulo `256 ^ w`, as `Stream::Write` stores it. -/
def encodeLE : Nat → Nat → Bytes
  | 0, _ => []
  | w + 1, n => UInt8.ofNat n :: encodeLE w (n / 256)

def decodeLE : Bytes → Nat
  | [] => 0
  | b :: bs => b.toNat + 256 * decodeLE bs

@[simp] theorem length_encodeLE (w n : Nat) : (encodeLE w n).length = w := by
  induction w generalizing n <;> simp [encodeLE, *]

theorem toNat_uint8_ofNat (n : Nat) : (UInt8.ofNat n).toNat = n % 256 := by
  simp [UInt8.toNat, UInt8.ofNat, BitVec.toNat_ofNat]

theorem decodeLE_encodeLE (w n : Nat) : decodeLE (encodeLE w n) = n % 256 ^ w := by
  induction w generalizing n with
  | zero => simp [encodeLE, decodeLE, Nat.mod_one]
  | succ w ih =>
    rw [encodeLE, decodeLE, ih, toNat_uint8_ofNat, Nat.pow_succ, Nat.mul_comm _ 256, Nat.mod_mul]

theorem uint8_ofNat_toNat (v : UInt8) : UInt8.ofNat v.toNat = v :=
  UInt8.eq_of_toBitVec_eq (by simp [UInt8.ofNat, UInt8.toNat])

theorem uint16_ofNat_toNat (v : UInt16) : UInt16.ofNat v.toNat = v :=
  UInt16.eq_of_toBitVec_eq (by simp [UInt16.ofNat, UInt16.toNat])

theorem uint32_ofNat_toNat (v : UInt32) : UInt32.ofNat v.toNat = v :=
  UInt32.eq_of_toBitVec_eq (by simp [UInt32.ofNat, UInt32.toNat])

theorem uint64_ofNat_toNat (v : UInt64) : UInt64.ofNat v.toNat = v :=
  UInt64.eq_of_toBitVec_eq (by simp [UInt64.ofNat, UInt64.toNat])

theorem toNat_uint64_ofNat {n : Nat} (h : n < 2 ^ 64) : (UInt64.ofNat n).toNat = n := by
  simp only [UInt64.ofNat, UInt64.toNat, BitVec.toNat_ofNat]
  exact Nat.mod_eq_of_lt h

def writeU8 (v : UInt8) : Bytes := encodeLE 1 v.toNat

def writeU16 (v : UInt16) : Bytes := encodeLE 2 v.toNat

def writeU32 (v : UInt32) : Bytes := encodeLE 4 v.toNat

/-- `Stream::Write` of a `uint64_t`, and of an `int64_t`, `double` or `size_t` by its 64 bits. -/
def writeU64 (v : UInt64) : Bytes := encodeLE 8 v.toNat

/-- `Stream::Write(std::string)`: the 64-bit length, then the bytes. -/
def writeString (s : Bytes) : Bytes := writeU64 (UInt64.ofNat s.length) ++ s

/-- `Stream::Write(std::vector<T>)`: the 64-bit count, then each element as `write` stores it. -/
def writeVector {α : Type} (write : α → Bytes) (xs : List α) : Bytes :=
  writeU64 (UInt64.ofNat xs.length) ++ xs.flatMap write

@[simp] theorem length_writeU8 (v : UInt8) : (writeU8 v).length = 1 := length_encodeLE _ _

@[simp] theorem length_writeU16 (v : UInt16) : (writeU16 v).length = 2 := length_encodeLE _ _

@[simp] theorem length_writeU32 (v : UInt32) : (writeU32 v).length = 4 := length_encodeLE _ _

@[simp] theorem length_writeU64 (v : UInt64) : (writeU64 v).length = 8 := length_encodeLE _ _

@[simp] theorem length_writeString (s : Bytes) : (writeString s).length = 8 + s.length := by
  simp [writeString]

@[simp] theorem length_writeVector {α : Type} (write : α → Bytes) (xs : List α) :
    (writeVector write xs).length = 8 + (xs.flatMap write).length := by
  simp [writeVector]

/-- Failures of `LoadFromBinary`, each a fatal error of the source. -/
inductive LoadError where
  /-- `STREAM_CHECK(val, section)`: "Invalid VM file format in the `section` section." -/
  | invalidFormat (sectionName : String)
  /-- `LOG(FATAL)` in `LoadConstantSection` on a type index that no branch reads. -/
  | unsupportedConstant (typeIndex : UInt32)
  /-- An `ICHECK` of the tensor loader, with its message. -/
  | invalidTensor (msg : String)
  /-- `std::string::resize` past what the host grants: `std::length_error` or `std::bad_alloc`. -/
  | resizeFailed (size : Nat)
  deriving DecidableEq, Repr

abbrev Load := StateT Bytes (Except LoadError)

/-- `Stream::Read(ptr, size)`: copies at most `size` bytes and moves the cursor past them. -/
def readRaw (n : Nat) : Load Bytes := fun s => .ok (s.take n, s.drop n)

/-- `Stream::Read(&x, w)`: how many bytes it read, and the value, with unread bytes zero. -/
def readLE (w : Nat) : Load (Nat × Nat) := do
  let bs ← readRaw w
  pure (bs.length, decodeLE bs)

/-- `Stream::Read(T*)` for an arithmetic `T`: whether all its bytes were there. -/
def readU8 : Load (Bool × UInt8) := do
  let (n, v) ← readLE 1
  pure (n == 1, UInt8.ofNat v)

def readU16 : Load (Bool × UInt16) := do
  let (n, v) ← readLE 2
  pure (n == 2, UInt16.ofNat v)

def readU32 : Load (Bool × UInt32) := do
  let (n, v) ← readLE 4
  pure (n == 4, UInt32.ofNat v)

def readU64 : Load (Bool × UInt64) := do
  let (n, v) ← readLE 8
  pure (n == 8, UInt64.ofNat v)

/-- `Stream::Read(std::string*)` on a host whose `resize` grants at most `maxSize` bytes. -/
def readStringUpTo (maxSize : Nat) : Load (Bool × Bytes) := do
  let (ok, sz) ← readU64
  if !ok then return (false, [])
  if maxSize < sz.toNat then throw (.resizeFailed sz.toNat)
  let bs ← readRaw sz.toNat
  pure (bs.length == sz.toNat, bs ++ List.replicate (sz.toNat - bs.length) 0)

/-- `Stream::Read(std::string*)` on a host whose `resize` grants every 64-bit length. -/
def readString : Load (Bool × Bytes) := readStringUpTo (2 ^ 64)

/-- `Stream::ReadArray`: reads `n` elements in order and stops at the first that fails. -/
def readArray {α : Type} (read : Load (Bool × α)) : Nat → Load (Bool × List α)
  | 0 => pure (true, [])
  | n + 1 => do
    let (ok, x) ← read
    if !ok then return (false, [])
    let (ok', xs) ← readArray read n
    pure (ok', x :: xs)

/-- `Stream::Read(std::vector<T>*)`: reads the count, then the elements. -/
def readVector {α : Type} (read : Load (Bool × α)) : Load (Bool × List α) := do
  let (ok, sz) ← readU64
  if !ok then return (false, [])
  readArray read sz.toNat

@[simp] theorem readRaw_append (bs rest : Bytes) :
    (readRaw bs.length).run (bs ++ rest) = .ok (bs, rest) := by
  simp [readRaw, StateT.run]

theorem readLE_encodeLE (w n : Nat) (rest : Bytes) :
    (readLE w).run (encodeLE w n ++ rest) = .ok ((w, n % 256 ^ w), rest) := by
  have h := readRaw_append (encodeLE w n) rest
  simp only [length_encodeLE] at h
  simp [readLE, h, decodeLE_encodeLE]

theorem readLE_encodeLE_of_lt {w n : Nat} (h : n < 256 ^ w) (rest : Bytes) :
    (readLE w).run (encodeLE w n ++ rest) = .ok ((w, n), rest) := by
  rw [readLE_encodeLE, Nat.mod_eq_of_lt h]

@[simp] theorem readU8_writeU8 (v : UInt8) (rest : Bytes) :
    readU8.run (writeU8 v ++ rest) = .ok ((true, v), rest) := by
  simp [readU8, writeU8, readLE_encodeLE_of_lt (show v.toNat < 256 ^ 1 from v.toBitVec.isLt),
    uint8_ofNat_toNat]

@[simp] theorem readU16_writeU16 (v : UInt16) (rest : Bytes) :
    readU16.run (writeU16 v ++ rest) = .ok ((true, v), rest) := by
  simp [readU16, writeU16, readLE_encodeLE_of_lt (show v.toNat < 256 ^ 2 from v.toBitVec.isLt), uint16_ofNat_toNat]

@[simp] theorem readU32_writeU32 (v : UInt32) (rest : Bytes) :
    readU32.run (writeU32 v ++ rest) = .ok ((true, v), rest) := by
  simp [readU32, writeU32, readLE_encodeLE_of_lt (show v.toNat < 256 ^ 4 from v.toBitVec.isLt), uint32_ofNat_toNat]

@[simp] theorem readU64_writeU64 (v : UInt64) (rest : Bytes) :
    readU64.run (writeU64 v ++ rest) = .ok ((true, v), rest) := by
  simp [readU64, writeU64, readLE_encodeLE_of_lt (show v.toNat < 256 ^ 8 from v.toBitVec.isLt), uint64_ofNat_toNat]

theorem readStringUpTo_writeString {maxSize : Nat} {s : Bytes} (h : s.length < 2 ^ 64)
    (hm : s.length ≤ maxSize) (rest : Bytes) :
    (readStringUpTo maxSize).run (writeString s ++ rest) = .ok ((true, s), rest) := by
  simp [readStringUpTo, writeString, toNat_uint64_ofNat h, Nat.not_lt.2 hm]

theorem readString_writeString {s : Bytes} (h : s.length < 2 ^ 64) (rest : Bytes) :
    readString.run (writeString s ++ rest) = .ok ((true, s), rest) :=
  readStringUpTo_writeString h h.le rest

theorem readArray_flatMap {α : Type} {read : Load (Bool × α)} {write : α → Bytes} (xs : List α)
    (hread : ∀ x ∈ xs, ∀ rest, read.run (write x ++ rest) = .ok ((true, x), rest))
    (rest : Bytes) :
    (readArray read xs.length).run (xs.flatMap write ++ rest) = .ok ((true, xs), rest) := by
  induction xs with
  | nil => rfl
  | cons x xs ih =>
    have hx := hread x (.head _) (xs.flatMap write ++ rest)
    have hxs := ih fun y hy => hread y (.tail _ hy)
    simp [readArray, hx, hxs]

theorem length_le_length_flatMap {α : Type} {write : α → Bytes} {xs : List α} {x : α}
    (hx : x ∈ xs) : (write x).length ≤ (xs.flatMap write).length := by
  induction xs with
  | nil => cases hx
  | cons y ys ih =>
    rw [List.flatMap_cons, List.length_append]
    rcases List.mem_cons.1 hx with rfl | h
    · omega
    · have := ih h; omega

theorem length_le_length_flatMap_of_ne_nil {α : Type} {write : α → Bytes}
    (hne : ∀ x, write x ≠ []) (xs : List α) : xs.length ≤ (xs.flatMap write).length := by
  induction xs with
  | nil => simp
  | cons y ys ih =>
    have := List.length_pos.2 (hne y)
    simp only [List.flatMap_cons, List.length_append, List.length_cons]; omega

/-- `read` reads `x` back from the bytes `write` stores for it, whatever follows them. -/
def ReadsBack {α : Type} (read : Load (Bool × α)) (write : α → Bytes) (x : α) : Prop :=
  (write x).length < 2 ^ 64 → ∀ rest, read.run (write x ++ rest) = .ok ((true, x), rest)

theorem readsBack_u8 (v : UInt8) : ReadsBack readU8 writeU8 v := fun _ => readU8_writeU8 v

theorem readsBack_u16 (v : UInt16) : ReadsBack readU16 writeU16 v := fun _ => readU16_writeU16 v

theorem readsBack_u32 (v : UInt32) : ReadsBack readU32 writeU32 v := fun _ => readU32_writeU32 v

theorem readsBack_u64 (v : UInt64) : ReadsBack readU64 writeU64 v := fun _ => readU64_writeU64 v

theorem readsBack_string (s : Bytes) : ReadsBack readString writeString s := fun h =>
  readString_writeString (by simp only [writeString, List.length_append] at h; omega)

theorem readsBack_vector {α : Type} {read : Load (Bool × α)} {write : α → Bytes} {xs : List α}
    (hxs : ∀ x ∈ xs, ReadsBack read write x) (hne : ∀ x, write x ≠ []) :
    ReadsBack (readVector read) (writeVector write) xs := by
  intro h rest
  simp only [writeVector, List.length_append] at h
  have hlen := length_le_length_flatMap_of_ne_nil hne xs
  have hread : ∀ x ∈ xs, ∀ rest, read.run (write x ++ rest) = .ok ((true, x), rest) :=
    fun x hx => hxs x hx (by
      have : (write x).length ≤ (xs.flatMap write).length := length_le_length_flatMap hx
      omega)
  simp [readVector, writeVector, toNat_uint64_ofNat (show xs.length < 2 ^ 64 by omega),
    readArray_flatMap xs hread]

theorem writeU64_ne_nil (v : UInt64) : writeU64 v ≠ [] := by simp [writeU64, encodeLE]

theorem writeString_ne_nil (s : Bytes) : writeString s ≠ [] := by
  simp [writeString, writeU64, encodeLE]

end Tvm.VM
