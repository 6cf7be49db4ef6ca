import Tvm.VM.RoundTrip

namespace Tvm.VM

/-- A host: the bytes of its `size_t` and its byte order. An `int` is 4 bytes on both widths. -/
structure Host where
  sizeTBytes : Nat
  bigEndian : Bool
  sizeTBytes_valid : sizeTBytes = 4 ∨ sizeTBytes = 8

namespace Host

def le64 : Host := ⟨8, false, .inr rfl⟩

def be64 : Host := ⟨8, true, .inr rfl⟩

def le32 : Host := ⟨4, false, .inl rfl⟩

/-- `Stream::Write` of a `size_t`: little-endian, at the host's width. -/
def writeSizeT (h : Host) (n : Nat) : Bytes := encodeLE h.sizeTBytes n

/-- `Stream::Read(&x, w)`: the bytes read, and `x` as the host reads it afterwards. -/
def readRaw (h : Host) (w : Nat) : Load (Nat × Nat) := do
  let bs ← VM.readRaw w
  pure (bs.length, if h.bigEndian then decodeLE (bs ++ List.replicate (w - bs.length) 0).reverse
    else decodeLE bs)

/-- `static_cast<size_t>` of a `uint64_t`. -/
def sizeT (h : Host) (n : Nat) : Nat := n % 2 ^ (8 * h.sizeTBytes)

end Host

theorem encodeLE_mod (w n : Nat) : encodeLE w (n % 256 ^ w) = encodeLE w n := by
  induction w generalizing n with
  | zero => rfl
  | succ w ih =>
    have hlow : UInt8.ofNat (n % 256 ^ (w + 1)) = UInt8.ofNat n := UInt8.toNat.inj (by
      rw [toNat_uint8_ofNat, toNat_uint8_ofNat,
        Nat.mod_mod_of_dvd _ ⟨256 ^ w, pow_succ' 256 w⟩])
    rw [encodeLE, encodeLE, hlow, pow_succ', Nat.mod_mul_right_div_self, ih]

theorem toNat_uint64_ofNat_mod (n : Nat) : (UInt64.ofNat n).toNat = n % 256 ^ 8 := by
  simp only [UInt64.ofNat, UInt64.toNat, BitVec.toNat_ofNat]
  rfl

theorem encodeLE_zero (w : Nat) : encodeLE w 0 = List.replicate w 0 := by
  induction w with
  | zero => rfl
  | succ w ih => rw [encodeLE, Nat.zero_div, ih]; rfl

theorem decodeLE_replicate_append (w : Nat) (bs : Bytes) :
    decodeLE (List.replicate w 0 ++ bs) = 256 ^ w * decodeLE bs := by
  induction w with
  | zero => simp
  | succ w ih =>
    rw [List.replicate_succ, List.cons_append, decodeLE, ih, pow_succ']
    simp [Nat.mul_assoc]

theorem decodeLE_reverse_encodeLE {n : Nat} (h : n < 256) (w : Nat) :
    decodeLE (encodeLE (w + 1) n).reverse = n * 256 ^ w := by
  rw [encodeLE, Nat.div_eq_of_lt h, encodeLE_zero, List.reverse_cons, List.reverse_replicate,
    decodeLE_replicate_append]
  simp [decodeLE, toNat_uint8_ofNat, Nat.mod_eq_of_lt h, Nat.mul_comm]

theorem Host.readRaw_encodeLE (h : Host) (w n : Nat) (rest : Bytes) :
    (h.readRaw w).run (encodeLE w n ++ rest) =
      .ok ((w, if h.bigEndian then decodeLE (encodeLE w n).reverse else n % 256 ^ w), rest) := by
  have hraw := readRaw_append (encodeLE w n) rest
  rw [length_encodeLE] at hraw
  simp [Host.readRaw, hraw, decodeLE_encodeLE]

section Codec

variable (tags : TypeIndex)

/-- One iteration of `SaveConstantSection`'s loop on the writer `w`. -/
def saveConstantOn (w : Host) : Constant → Bytes
  | .ndarray t => writeU32 tags.kTVMFFINDArray ++ saveDLTensor t
  | .shape dims => writeU32 tags.kTVMFFIShape ++ w.writeSizeT dims.length ++ dims.flatMap writeU64
  | .str s => writeU32 tags.kTVMFFIStr ++ w.writeSizeT s.length ++ s.flatMap writeU8
  | .int v => writeU32 tags.kTVMFFIInt ++ writeU64 v
  | .float v => writeU32 tags.kTVMFFIFloat ++ writeU64 v
  | .dataType t => writeU32 tags.kTVMFFIDataType ++ writeDLDataType t

/-- `SaveConstantSection` on the writer `w`: the count is cast to `uint64_t`. -/
def saveConstantSectionOn (w : Host) (e : VMExecutable) : Bytes :=
  writeU64 (UInt64.ofNat e.constants.length) ++ e.constants.flatMap (saveConstantOn tags w)

/-- One iteration of `LoadConstantSection`'s loop on the reader `r`. -/
def loadConstantOn (r : Host) : Load Constant := do
  let (n, constantType) ← r.readRaw 4
  streamCheck (n != 0) "constant"
  let constantType := UInt32.ofNat constantType
  if constantType == tags.kTVMFFINDArray then
    return .ndarray (← loadNDArray)
  else if constantType == tags.kTVMFFIShape then
    let (_, size) ← readU64
    return .shape (← readEach readU64 size.toNat)
  else if constantType == tags.kTVMFFIDataType then
    let (_, dtype) ← readDLDataType
    return .dataType dtype
  else if constantType == tags.kTVMFFIStr then
    let (_, size) ← readU64
    return .str (← readEach readU8 size.toNat)
  else if constantType == tags.kTVMFFIInt then
    let (_, v) ← readU64
    return .int v
  else if constantType == tags.kTVMFFIFloat then
    let (_, v) ← readU64
    return .float v
  else
    throw (.unsupportedConstant constantType)

def loadConstantsOn (r : Host) : Nat → Load (List Constant)
  | 0 => pure []
  | n + 1 => do
    let c ← loadConstantOn tags r
    let cs ← loadConstantsOn r n
    pure (c :: cs)

/-- `LoadConstantSection` on the reader `r`: the count read raw and cast to `size_t`. -/
def loadConstantSectionOn (r : Host) : Load (List Constant) := do
  let (n, sz) ← r.readRaw 8
  streamCheck (n != 0) "constant"
  loadConstantsOn tags r (r.sizeT sz)

theorem Host.writeSizeT_of_sizeT64 {h : Host} (hw : h.sizeTBytes = 8) (n : Nat) :
    h.writeSizeT n = VM.writeSizeT n := by
  rw [Host.writeSizeT, hw, VM.writeSizeT, writeU64, toNat_uint64_ofNat_mod, ← encodeLE_mod 8 n]

theorem saveConstantOn_of_sizeT64 {w : Host} (hw : w.sizeTBytes = 8) :
    saveConstantOn tags w = saveConstant tags := by
  funext c
  cases c <;> simp only [saveConstantOn, saveConstant, Host.writeSizeT_of_sizeT64 hw]

theorem saveConstantSectionOn_of_sizeT64 {w : Host} (hw : w.sizeTBytes = 8) :
    saveConstantSectionOn tags w = saveConstantSection tags := by
  funext e
  rw [saveConstantSectionOn, saveConstantSection, saveConstantOn_of_sizeT64 tags hw]

theorem Host.readRaw_of_littleEndian {h : Host} (hb : h.bigEndian = false) (w : Nat) :
    h.readRaw w = readLE w := by
  simp only [Host.readRaw, hb, Bool.false_eq_true, if_false]
  rfl

theorem loadConstantOn_of_littleEndian {r : Host} (hr : r.bigEndian = false) :
    loadConstantOn tags r = loadConstant tags := by
  rw [loadConstantOn, Host.readRaw_of_littleEndian hr]
  rfl

theorem loadConstantsOn_of_littleEndian {r : Host} (hr : r.bigEndian = false) :
    ∀ n, loadConstantsOn tags r n = loadConstants tags n
  | 0 => rfl
  | n + 1 => by
    rw [loadConstantsOn, loadConstants, loadConstantOn_of_littleEndian tags hr,
      loadConstantsOn_of_littleEndian hr n]

/-- A 64-bit writer of either byte order is read back by a little-endian reader that fits it. -/
theorem loadConstantSectionOn_saveConstantSectionOn {w r : Host} (hw : w.sizeTBytes = 8)
    (hr : r.bigEndian = false) (e : VMExecutable)
    (hn : e.constants.length < 2 ^ (8 * r.sizeTBytes))
    (h : (saveConstantSection tags e).length < 2 ^ 64) (rest : Bytes) :
    (loadConstantSectionOn tags r).run (saveConstantSectionOn tags w e ++ rest) =
      .ok (e.constants, rest) := by
  have hcount : writeU64 (UInt64.ofNat e.constants.length) = encodeLE 8 e.constants.length := by
    rw [writeU64, toNat_uint64_ofNat_mod, encodeLE_mod]
  have hsz : r.sizeT (e.constants.length % 256 ^ 8) = e.constants.length % 256 ^ 8 := by
    rcases r.sizeTBytes_valid with hw | hw <;> simp only [Host.sizeT, hw] at hn ⊢ <;> omega
  have hload := loadConstantSection_saveConstantSection tags e h rest
  simp only [loadConstantSection, loadConstantSectionOn, saveConstantSection,
    saveConstantSectionOn_of_sizeT64 tags hw, hcount, List.append_assoc, StateT.run_bind,
    Host.readRaw_encodeLE, readLE_encodeLE, hr, Bool.false_eq_true, if_false, except_ok_bind,
    loadConstantsOn_of_littleEndian tags hr, hsz] at hload ⊢
  exact hload

end Codec

theorem loadConstantSectionOn_saveConstantSectionOn_be64_le32 :
    (1 < 2 ^ (8 * Host.le32.sizeTBytes) ∧
      (saveConstantSection ⟨70, 69, 65, 1, 3, 5, by decide⟩ ⟨[.int 0], [], [], [], []⟩).length <
        2 ^ 64) ∧
    (loadConstantSectionOn ⟨70, 69, 65, 1, 3, 5, by decide⟩ Host.le32).run
        (saveConstantSectionOn ⟨70, 69, 65, 1, 3, 5, by decide⟩ Host.be64
          ⟨[.int 0], [], [], [], []⟩ ++ []) = .ok ([.int 0], []) :=
  have hn : 1 < 2 ^ (8 * Host.le32.sizeTBytes) := by decide
  have h : (saveConstantSection ⟨70, 69, 65, 1, 3, 5, by decide⟩
      ⟨[.int 0], [], [], [], []⟩).length < 2 ^ 64 := by
    simp [saveConstantSection, saveConstant]
  ⟨⟨hn, h⟩, loadConstantSectionOn_saveConstantSectionOn _ rfl rfl ⟨[.int 0], [], [], [], []⟩ hn h []⟩

section Codec

variable (tags : TypeIndex)

theorem length_of_loadConstantsOn {r : Host} {n : Nat} {s s' : Bytes} {cs : List Constant}
    (h : (loadConstantsOn tags r n).run s = .ok (cs, s')) : cs.length = n := by
  induction n generalizing s cs with
  | zero => cases h; rfl
  | succ n ih =>
    obtain ⟨⟨c, s₁⟩, -, h⟩ := except_bind_eq_ok h
    obtain ⟨⟨cs', s₂⟩, hcs, h⟩ := except_bind_eq_ok h
    cases h
    exact congrArg (· + 1) (ih hcs)

theorem length_of_readEach {α : Type} {read : Load (Bool × α)} {n : Nat} {s s' : Bytes}
    {xs : List α} (h : (readEach read n).run s = .ok (xs, s')) : xs.length = n := by
  induction n generalizing s xs with
  | zero => cases h; rfl
  | succ n ih =>
    obtain ⟨⟨x, s₁⟩, -, h⟩ := except_bind_eq_ok h
    obtain ⟨⟨xs', s₂⟩, hxs, h⟩ := except_bind_eq_ok h
    cases h
    exact congrArg (· + 1) (ih hxs)

/-- A big-endian reader reads the count byte-swapped: `n < 256` constants load as `n * 256^7`. -/
theorem length_loadConstantSectionOn_bigEndian {w r : Host} (hr : r.bigEndian = true)
    (e : VMExecutable) (hn : e.constants.length < 256) {rest rest' : Bytes} {cs : List Constant}
    (h : (loadConstantSectionOn tags r).run (saveConstantSectionOn tags w e ++ rest) =
      .ok (cs, rest')) :
    cs.length = r.sizeT (e.constants.length * 256 ^ 7) := by
  have hcount : writeU64 (UInt64.ofNat e.constants.length) = encodeLE 8 e.constants.length := by
    rw [writeU64, toNat_uint64_ofNat_mod, encodeLE_mod]
  have hswap := decodeLE_reverse_encodeLE hn 7
  simp only [loadConstantSectionOn, saveConstantSectionOn, hcount, List.append_assoc,
    StateT.run_bind, Host.readRaw_encodeLE, hr, if_true, except_ok_bind] at h hswap
  simp only [hswap, Nat.reduceBNe, streamCheck_true, StateT.run_pure, except_pure, except_ok_bind] at h
  exact length_of_loadConstantsOn tags h

theorem loadConstantSectionOn_bigEndian_ne {w r : Host} (hr : r.bigEndian = true)
    (e : VMExecutable) (hpos : 0 < e.constants.length) (hn : e.constants.length < 256)
    (rest rest' : Bytes) :
    (loadConstantSectionOn tags r).run (saveConstantSectionOn tags w e ++ rest) ≠
      .ok (e.constants, rest') := by
  intro h
  have hlen := length_loadConstantSectionOn_bigEndian tags hr e hn h
  rcases r.sizeTBytes_valid with hw | hw <;> simp only [Host.sizeT, hw] at hlen <;> omega

theorem length_saveConstantOn_of_sizeT32 {w : Host} (hw : w.sizeTBytes = 4) :
    (∀ dims, (saveConstantOn tags w (.shape dims)).length + 4 =
      (saveConstant tags (.shape dims)).length) ∧
    ∀ s, (saveConstantOn tags w (.str s)).length + 4 = (saveConstant tags (.str s)).length := by
  constructor <;> intro x <;>
    simp only [saveConstantOn, saveConstant, Host.writeSizeT, hw, writeSizeT, List.length_append,
      length_encodeLE, length_writeU32, length_writeU64] <;> omega

theorem length_of_loadConstant_shape {v : UInt64} {rest s' : Bytes} {c : Constant}
    (h : (loadConstant tags).run (writeU32 tags.kTVMFFIShape ++ (writeU64 v ++ rest)) =
      .ok (c, s')) :
    ∃ dims, c = .shape dims ∧ dims.length = v.toNat := by
  have hd := tags.nodup
  simp only [List.nodup_cons, List.mem_cons, not_or] at hd
  simp only [loadConstant, StateT.run_bind, readLE_writeU32, except_ok_bind, Nat.reduceBNe,
    streamCheck_true, StateT.run_pure, except_pure, uint32_ofNat_toNat, beq_iff_eq,
    Ne.symm hd.1.1, if_false, if_true, readU64_writeU64] at h
  obtain ⟨⟨dims, s₁⟩, hdims, h⟩ := except_bind_eq_ok h
  cases h
  exact ⟨dims, rfl, length_of_readEach hdims⟩

end Codec

/-- Hosts the tests do not run on: a big-endian reader and a 32-bit writer break the round trip. -/
theorem loadConstantSectionOn_other_hosts (tags : TypeIndex) (rest rest' : Bytes) :
    (loadConstantSectionOn tags Host.be64).run
        (saveConstantSectionOn tags Host.le64 ⟨[.int 0], [], [], [], []⟩ ++ rest) ≠
      .ok ([.int 0], rest') ∧
    (loadConstantSectionOn tags Host.le64).run
        (saveConstantSectionOn tags Host.le32 ⟨[.shape [1]], [], [], [], []⟩ ++ rest) ≠
      .ok ([.shape [1]], rest') := by
  refine ⟨loadConstantSectionOn_bigEndian_ne tags rfl _ (by decide) (by decide) rest rest', ?_⟩
  intro h
  have hbytes : saveConstantSectionOn tags Host.le32 ⟨[.shape [1]], [], [], [], []⟩ ++ rest =
      encodeLE 8 1 ++ (writeU32 tags.kTVMFFIShape ++
        (writeU64 4294967297 ++ (encodeLE 4 0 ++ rest))) := by
    simp only [saveConstantSectionOn, saveConstantOn, List.flatMap_cons, List.flatMap_nil,
      List.append_nil, List.append_assoc]
    rfl
  rw [hbytes] at h
  simp only [loadConstantSectionOn, Host.readRaw_encodeLE, StateT.run_bind, except_ok_bind,
    loadConstantsOn_of_littleEndian tags (show Host.le64.bigEndian = false from rfl)] at h
  simp only [Host.le64, Bool.false_eq_true, if_false, Host.sizeT, Nat.reduceBNe, streamCheck_true,
    StateT.run_pure, except_pure, except_ok_bind, loadConstants, StateT.run_bind] at h
  obtain ⟨⟨c, s₁⟩, hc, h⟩ := except_bind_eq_ok h
  obtain ⟨dims, rfl, hlen⟩ := length_of_loadConstant_shape tags hc
  simp only [Except.ok.injEq, Prod.mk.injEq, List.cons.injEq, Constant.shape.injEq, and_true] at h
  rw [h.1] at hlen
  exact absurd hlen (by decide)

end Tvm.VM
