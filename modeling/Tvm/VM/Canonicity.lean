import Tvm.VM.Truncation

namespace Tvm.VM

theorem decodeLE_lt : ∀ bs : Bytes, decodeLE bs < 256 ^ bs.length
  | [] => Nat.one_pos
  | b :: bs => by
    have hb : b.toNat < 256 := b.toBitVec.isLt
    have := decodeLE_lt bs
    rw [decodeLE, List.length_cons, Nat.pow_succ]
    omega

theorem encodeLE_decodeLE : ∀ bs : Bytes, encodeLE bs.length (decodeLE bs) = bs
  | [] => rfl
  | b :: bs => by
    have hb : b.toNat < 256 := b.toBitVec.isLt
    rw [List.length_cons, encodeLE, decodeLE, show (b.toNat + 256 * decodeLE bs) / 256 =
      decodeLE bs by omega, encodeLE_decodeLE bs]
    exact congrArg (· :: bs) (UInt8.toNat.inj (by rw [toNat_uint8_ofNat]; omega))

theorem readLE_cases {w n v : Nat} {s s' : Bytes} (h : (readLE w).run s = .ok ((n, v), s')) :
    n = w ∧ v < 256 ^ w ∧ s = encodeLE w v ++ s' ∨ n < w ∧ s' = [] := by
  cases h
  by_cases hw : w ≤ s.length
  · have hl : (s.take w).length = w := by simp [hw]
    refine .inl ⟨hl, by simpa only [hl] using decodeLE_lt (s.take w), ?_⟩
    conv_lhs => rw [← List.take_append_drop w s, ← encodeLE_decodeLE (s.take w), hl]
  · exact .inr ⟨by simp; omega, List.drop_eq_nil_of_le (by omega)⟩

/-- `read` succeeds having read exactly what `write` stores, or reports a short read at the end. -/
def ReadsExactly {α : Type} (read : Load (Bool × α)) (write : α → Bytes) : Prop :=
  ∀ {s ok x s'}, read.run s = .ok ((ok, x), s') →
    ok = true ∧ s = write x ++ s' ∨ ok = false ∧ s' = []

theorem ReadsExactly.bind {α β : Type} {read : Load (Bool × α)} {write : α → Bytes}
    (hr : ReadsExactly read write) {f : Bool × α → Load β} {s : Bytes} {r : β × Bytes}
    (h : (read >>= f).run s = .ok r) :
    ∃ ok x s₁, (ok = true ∧ s = write x ++ s₁ ∨ ok = false ∧ s₁ = []) ∧
      (f (ok, x)).run s₁ = .ok r := by
  obtain ⟨⟨ok, x⟩, s₁, h₁, h⟩ := stateT_bind_eq_ok h
  exact ⟨ok, x, s₁, hr h₁, h⟩

theorem readsExactly_readLE {α : Type} {w : Nat} {f : Nat → α} {write : α → Bytes}
    (hw : ∀ v < 256 ^ w, write (f v) = encodeLE w v) :
    ReadsExactly (do let (n, v) ← readLE w; pure (n == w, f v)) write := by
  intro s ok x s' h
  obtain ⟨⟨n, v⟩, s₁, h₁, h⟩ := stateT_bind_eq_ok h
  cases h
  rcases readLE_cases h₁ with ⟨rfl, hv, rfl⟩ | ⟨hn, rfl⟩
  · exact .inl ⟨beq_self_eq_true _, by rw [hw v hv]⟩
  · exact .inr ⟨beq_false_of_ne (Nat.ne_of_lt hn), rfl⟩

theorem readsExactly_u8 : ReadsExactly readU8 writeU8 :=
  readsExactly_readLE fun v hv => by
    rw [writeU8, show (UInt8.ofNat v).toNat = v from Nat.mod_eq_of_lt hv]

theorem readsExactly_u16 : ReadsExactly readU16 writeU16 :=
  readsExactly_readLE fun v hv => by
    rw [writeU16, show (UInt16.ofNat v).toNat = v from Nat.mod_eq_of_lt hv]

theorem readsExactly_u32 : ReadsExactly readU32 writeU32 :=
  readsExactly_readLE fun v hv => by
    rw [writeU32, show (UInt32.ofNat v).toNat = v from Nat.mod_eq_of_lt hv]

theorem readsExactly_u64 : ReadsExactly readU64 writeU64 :=
  readsExactly_readLE fun v hv => by
    rw [writeU64, show (UInt64.ofNat v).toNat = v from Nat.mod_eq_of_lt hv]

theorem readString_cases {s x s' : Bytes} {ok : Bool} (h₀ : readString.run s = .ok ((ok, x), s')) :
    x.length < 2 ^ 64 ∧ (ok = true ∧ s = writeString x ++ s' ∨
      ok = false ∧ s' = [] ∧ (x = [] ∨ ∃ z, s ++ List.replicate z 0 = writeString x)) := by
  obtain ⟨ok₁, sz, s₁, ⟨rfl, rfl⟩ | ⟨rfl, rfl⟩, h⟩ := readsExactly_u64.bind h₀
  · have hsz : ¬ 2 ^ 64 < sz.toNat := Nat.not_lt.2 sz.toBitVec.isLt.le
    simp only [Bool.not_true, Bool.false_eq_true, if_false, pure_bind, hsz] at h
    cases h
    have hlen : (s₁.take sz.toNat ++
        List.replicate (sz.toNat - (s₁.take sz.toNat).length) 0).length = sz.toNat := by
      simp only [List.length_append, List.length_take, List.length_replicate]; omega
    refine ⟨by rw [hlen]; exact sz.toBitVec.isLt, ?_⟩
    rw [writeString, hlen, uint64_ofNat_toNat]
    by_cases hle : sz.toNat ≤ s₁.length
    · have hl : (s₁.take sz.toNat).length = sz.toNat := by simp [hle]
      refine .inl ⟨by simp [hl], ?_⟩
      rw [hl, Nat.sub_self, List.replicate_zero, List.append_nil, List.append_assoc,
        List.take_append_drop]
    · rw [List.take_of_length_le (by omega)]
      exact .inr ⟨by simp; omega, List.drop_eq_nil_of_le (by omega), .inr ⟨_, List.append_assoc _ _ _⟩⟩
  · cases h
    exact ⟨by simp, .inr ⟨rfl, rfl, .inl rfl⟩⟩

theorem readsExactly_string : ReadsExactly readString writeString := fun h =>
  (readString_cases h).2.imp id fun h => ⟨h.1, h.2.1⟩

theorem readString_ok (s : Bytes) : ∃ r s', readString.run s = .ok (r, s') := by
  obtain ⟨⟨ok, sz⟩, s₁, h₁⟩ : ∃ r s₁, readU64.run s = .ok (r, s₁) := ⟨_, _, rfl⟩
  have hsz : ¬ 2 ^ 64 < sz.toNat := Nat.not_lt.2 sz.toBitVec.isLt.le
  rw [readString, readStringUpTo, StateT.run_bind, h₁, except_ok_bind]
  cases ok
  · exact ⟨_, _, rfl⟩
  · simp only [Bool.not_true, Bool.false_eq_true, if_false, hsz]
    exact ⟨_, _, rfl⟩

theorem readU64_run (s : Bytes) :
    readU64.run s = .ok (((s.take 8).length == 8, UInt64.ofNat (decodeLE (s.take 8))), s.drop 8) :=
  rfl

theorem readStringUpTo_run {m : Nat} {s s₁ : Bytes} {ok : Bool} {sz : UInt64}
    (h₁ : readU64.run s = .ok ((ok, sz), s₁)) :
    (readStringUpTo m).run s =
      if ok = true ∧ m < sz.toNat then .error (.resizeFailed sz.toNat) else readString.run s := by
  have hsz : ¬ 2 ^ 64 < sz.toNat := Nat.not_lt.2 sz.toBitVec.isLt.le
  rw [readString, readStringUpTo, readStringUpTo, StateT.run_bind, StateT.run_bind, h₁,
    except_ok_bind, except_ok_bind]
  cases ok
  · rfl
  · by_cases hm : m < sz.toNat
    · simp only [Bool.not_true, Bool.false_eq_true, if_false, hm, if_true, and_self]
      rfl
    · simp only [Bool.not_true, Bool.false_eq_true, if_false, hm, hsz, and_false]

theorem readStringUpTo_ok {m : Nat} {s x s' : Bytes} {ok : Bool}
    (h : (readStringUpTo m).run s = .ok ((ok, x), s')) :
    x.length ≤ m ∧ readString.run s = .ok ((ok, x), s') := by
  obtain ⟨⟨ok₁, sz⟩, s₁, h₁⟩ : ∃ r s₁, readU64.run s = .ok (r, s₁) := ⟨_, _, rfl⟩
  have h' := h
  rw [readStringUpTo_run h₁] at h'
  split at h'
  · cases h'
  refine ⟨?_, h'⟩
  rw [readStringUpTo, StateT.run_bind, h₁, except_ok_bind] at h
  cases ok₁
  · cases h
    exact Nat.zero_le _
  · by_cases hm : m < sz.toNat
    · simp [hm] at h
      cases h
    · simp only [Bool.not_true, Bool.false_eq_true, if_false, hm] at h
      cases h
      rw [List.length_append, List.length_replicate, List.length_take]
      omega

theorem isPrefixOf_writeU64_iff {v : UInt64} {s s₁ : Bytes} {ok : Bool} {m : UInt64}
    (h : readU64.run s = .ok ((ok, m), s₁)) :
    (writeU64 v).isPrefixOf s = true ↔ ok = true ∧ m = v := by
  rw [List.isPrefixOf_iff_prefix]
  constructor
  · rintro ⟨t, rfl⟩
    rw [readU64_writeU64] at h
    cases h
    exact ⟨rfl, rfl⟩
  · rintro ⟨rfl, rfl⟩
    rcases readsExactly_u64 h with ⟨-, rfl⟩ | ⟨⟨⟩, -⟩
    exact ⟨s₁, rfl⟩

theorem readArray_cases {α : Type} {read : Load (Bool × α)} {write : α → Bytes}
    (hr : ReadsExactly read write) : ∀ (n : Nat) {s ok xs s'},
    (readArray read n).run s = .ok ((ok, xs), s') →
      ok = true ∧ xs.length = n ∧ s = xs.flatMap write ++ s' ∨ ok = false ∧ s' = []
  | 0, s, ok, xs, s', h => by cases h; exact .inl ⟨rfl, rfl, rfl⟩
  | n + 1, s, ok, xs, s', hrun => by
    obtain ⟨ok₁, x, s₁, ⟨rfl, rfl⟩ | ⟨rfl, rfl⟩, h⟩ := hr.bind hrun
    · simp only [Bool.not_true, Bool.false_eq_true, if_false, pure_bind] at h
      obtain ⟨⟨ok₂, xs₂⟩, s₂, h₂, h⟩ := stateT_bind_eq_ok h
      cases h
      rcases readArray_cases hr n h₂ with ⟨rfl, hl, rfl⟩ | ⟨rfl, rfl⟩
      · exact .inl ⟨rfl, by simp [hl], by simp⟩
      · exact .inr ⟨rfl, rfl⟩
    · cases h
      exact .inr ⟨rfl, rfl⟩

theorem readsExactly_vector {α : Type} {read : Load (Bool × α)} {write : α → Bytes}
    (hr : ReadsExactly read write) : ReadsExactly (readVector read) (writeVector write) := by
  intro s ok xs s' hrun
  obtain ⟨ok₁, sz, s₁, ⟨rfl, rfl⟩ | ⟨rfl, rfl⟩, h⟩ := readsExactly_u64.bind hrun
  · simp only [Bool.not_true, Bool.false_eq_true, if_false, pure_bind] at h
    rcases readArray_cases hr sz.toNat h with ⟨rfl, hl, rfl⟩ | ⟨rfl, rfl⟩
    · exact .inl ⟨rfl, by rw [writeVector, hl, uint64_ofNat_toNat, List.append_assoc]⟩
    · exact .inr ⟨rfl, rfl⟩
  · cases h
    exact .inr ⟨rfl, rfl⟩

theorem readsExactly_dlDataType : ReadsExactly readDLDataType writeDLDataType := by
  intro s ok t s' h₀
  obtain ⟨ok₁, code, s₁, ⟨rfl, rfl⟩ | ⟨rfl, rfl⟩, h₁⟩ := readsExactly_u8.bind h₀
  swap; · cases h₁; exact .inr ⟨rfl, rfl⟩
  simp only [Bool.not_true, Bool.false_eq_true, if_false, pure_bind] at h₁
  obtain ⟨ok₂, bits, s₂, ⟨rfl, rfl⟩ | ⟨rfl, rfl⟩, h₂⟩ := readsExactly_u8.bind h₁
  swap; · cases h₂; exact .inr ⟨rfl, rfl⟩
  simp only [Bool.not_true, Bool.false_eq_true, if_false, pure_bind] at h₂
  obtain ⟨ok₃, lanes, s₃, ⟨rfl, rfl⟩ | ⟨rfl, rfl⟩, h₃⟩ := readsExactly_u16.bind h₂ <;> cases h₃
  · exact .inl ⟨rfl, by simp [writeDLDataType]⟩
  · exact .inr ⟨rfl, rfl⟩

theorem readsExactly_funcInfo : ReadsExactly VMFuncInfo.load VMFuncInfo.save := by
  intro s ok f s' h₀
  obtain ⟨ok₁, kind, s₁, ⟨rfl, rfl⟩ | ⟨rfl, rfl⟩, h₁⟩ := readsExactly_u32.bind h₀
  swap; · cases h₁; exact .inr ⟨rfl, rfl⟩
  simp only [Bool.not_true, Bool.false_eq_true, if_false, pure_bind] at h₁
  obtain ⟨ok₂, name, s₂, ⟨rfl, rfl⟩ | ⟨rfl, rfl⟩, h₂⟩ := readsExactly_string.bind h₁
  swap; · cases h₂; exact .inr ⟨rfl, rfl⟩
  simp only [Bool.not_true, Bool.false_eq_true, if_false, pure_bind] at h₂
  obtain ⟨ok₃, startInstr, s₃, ⟨rfl, rfl⟩ | ⟨rfl, rfl⟩, h₃⟩ := readsExactly_u64.bind h₂
  swap; · cases h₃; exact .inr ⟨rfl, rfl⟩
  simp only [Bool.not_true, Bool.false_eq_true, if_false, pure_bind] at h₃
  obtain ⟨ok₄, endInstr, s₄, ⟨rfl, rfl⟩ | ⟨rfl, rfl⟩, h₄⟩ := readsExactly_u64.bind h₃
  swap; · cases h₄; exact .inr ⟨rfl, rfl⟩
  simp only [Bool.not_true, Bool.false_eq_true, if_false, pure_bind] at h₄
  obtain ⟨ok₅, numArgs, s₅, ⟨rfl, rfl⟩ | ⟨rfl, rfl⟩, h₅⟩ := readsExactly_u64.bind h₄
  swap; · cases h₅; exact .inr ⟨rfl, rfl⟩
  simp only [Bool.not_true, Bool.false_eq_true, if_false, pure_bind] at h₅
  obtain ⟨ok₆, registerFileSize, s₆, ⟨rfl, rfl⟩ | ⟨rfl, rfl⟩, h₆⟩ := readsExactly_u64.bind h₅
  swap; · cases h₆; exact .inr ⟨rfl, rfl⟩
  simp only [Bool.not_true, Bool.false_eq_true, if_false, pure_bind] at h₆
  obtain ⟨ok₇, paramNames, s₇, ⟨rfl, rfl⟩ | ⟨rfl, rfl⟩, h₇⟩ :=
    ReadsExactly.bind (readsExactly_vector readsExactly_string) h₆ <;> cases h₇
  · exact .inl ⟨rfl, by simp [VMFuncInfo.save]⟩
  · exact .inr ⟨rfl, rfl⟩

theorem loadNDArray_sound {s s' : Bytes} {t : NDArray} (h₀ : loadNDArray.run s = .ok (t, s')) :
    s = saveDLTensor t ++ s' := by
  obtain ⟨ok₁, device, s₁, ⟨rfl, rfl⟩ | ⟨rfl, rfl⟩, h₁⟩ := readsExactly_u32.bind h₀
  swap; · cases h₁
  simp only [if_true, pure_bind] at h₁
  obtain ⟨ok₂, dtype, s₂, ⟨rfl, rfl⟩ | ⟨rfl, rfl⟩, h₂⟩ := readsExactly_dlDataType.bind h₁
  swap; · cases h₂
  by_cases hd : device = kDLCPU
  swap; · simp only [beq_iff_eq, hd, if_false] at h₂; cases h₂
  simp only [if_true, pure_bind, hd, beq_self_eq_true] at h₂
  obtain ⟨ok₃, shape, s₃, ⟨rfl, rfl⟩ | ⟨rfl, rfl⟩, h₃⟩ :=
    ReadsExactly.bind (readsExactly_vector readsExactly_u64) h₂
  swap; · cases h₃
  simp only [if_true, pure_bind] at h₃
  obtain ⟨ok₄, data, s₄, ⟨rfl, rfl⟩ | ⟨rfl, rfl⟩, h₄⟩ := readsExactly_string.bind h₃
  swap; · cases h₄
  simp only [if_true] at h₄
  split at h₄
  · cases h₄
    simp [saveDLTensor, hd]
  · cases h₄


theorem streamCheck_ok {c : Bool} {sectionName : String} {s s' : Bytes} {u : Unit}
    (h : (streamCheck c sectionName).run s = .ok (u, s')) : c = true ∧ s' = s := by
  cases c <;> cases h
  exact ⟨rfl, rfl⟩

theorem streamCheck_bind_ok {β : Type} {c : Bool} {sectionName : String} {f : Unit → Load β}
    {s : Bytes} {r : β × Bytes} (h : (streamCheck c sectionName >>= f).run s = .ok r) :
    c = true ∧ (f ()).run s = .ok r := by
  cases c
  · cases h
  · exact ⟨rfl, h⟩

theorem readEach_cases {α : Type} {read : Load (Bool × α)} {write : α → Bytes}
    (hr : ReadsExactly read write) : ∀ (n : Nat) {s xs s'},
    (readEach read n).run s = .ok (xs, s') → s' = [] ∨ xs.length = n ∧ s = xs.flatMap write ++ s'
  | 0, s, xs, s', h => by cases h; exact .inr ⟨rfl, rfl⟩
  | n + 1, s, xs, s', h₀ => by
    obtain ⟨ok, x, s₁, hx, h₁⟩ := hr.bind h₀
    obtain ⟨xs₁, s₂, h₂, h₃⟩ := stateT_bind_eq_ok h₁
    cases h₃
    rcases hx with ⟨-, rfl⟩ | ⟨-, rfl⟩ <;> rcases readEach_cases hr n h₂ with rfl | ⟨hl, he⟩
    · exact .inl rfl
    · exact .inr ⟨by simp [hl], by simp [he]⟩
    · exact .inl rfl
    · exact .inl (List.append_eq_nil.1 he.symm).2

theorem readEach_sized {α : Type} {read : Load (Bool × α)} {write : α → Bytes}
    (hr : ReadsExactly read write) {ok : Bool} {size : UInt64} {s s₁ s' : Bytes} {xs : List α}
    (hsize : ok = true ∧ s = writeU64 size ++ s₁ ∨ ok = false ∧ s₁ = [])
    (h : (readEach read size.toNat).run s₁ = .ok (xs, s')) :
    s' = [] ∨ s = writeU64 (UInt64.ofNat xs.length) ++ xs.flatMap write ++ s' := by
  rcases hsize with ⟨-, rfl⟩ | ⟨-, rfl⟩ <;> rcases readEach_cases hr _ h with rfl | ⟨hl, he⟩
  · exact .inl rfl
  · exact .inr (by rw [hl, uint64_ofNat_toNat, he, List.append_assoc])
  · exact .inl rfl
  · exact .inl (List.append_eq_nil.1 he.symm).2

theorem loadConstant_cases (tags : TypeIndex) {s s' : Bytes} {c : Constant}
    (h₀ : (loadConstant tags).run s = .ok (c, s')) : s' = [] ∨ s = saveConstant tags c ++ s' := by
  obtain ⟨⟨n, t⟩, s₁, h₁, h₂⟩ := stateT_bind_eq_ok h₀
  have hpay : s' = [] ∨ ∃ pre, saveConstant tags c = writeU32 (UInt32.ofNat t) ++ pre ∧
      s₁ = pre ++ s' := by
    obtain ⟨⟨⟩, s₂, h₃, h₄⟩ := stateT_bind_eq_ok h₂
    obtain ⟨-, rfl⟩ := streamCheck_ok h₃
    dsimp only at h₄
    by_cases h1 : (UInt32.ofNat t == tags.kTVMFFINDArray) = true
    · rw [if_pos h1] at h₄
      obtain ⟨x, s₃, h₅, h₆⟩ := stateT_bind_eq_ok h₄
      cases h₆
      exact .inr ⟨_, by rw [saveConstant, beq_iff_eq.1 h1], loadNDArray_sound h₅⟩
    rw [if_neg h1] at h₄
    by_cases h2 : (UInt32.ofNat t == tags.kTVMFFIShape) = true
    · rw [if_pos h2] at h₄
      obtain ⟨ok, size, s₃, hx, h₅⟩ := readsExactly_u64.bind h₄
      obtain ⟨dims, s₄, h₆, h₇⟩ := stateT_bind_eq_ok h₅
      cases h₇
      exact (readEach_sized readsExactly_u64 hx h₆).imp_right fun he =>
        ⟨_, by rw [saveConstant, beq_iff_eq.1 h2, writeSizeT, List.append_assoc],
          by rw [he, List.append_assoc]⟩
    rw [if_neg h2] at h₄
    by_cases h3 : (UInt32.ofNat t == tags.kTVMFFIDataType) = true
    · rw [if_pos h3] at h₄
      obtain ⟨ok, d, s₃, ⟨-, rfl⟩ | ⟨-, rfl⟩, h₅⟩ := readsExactly_dlDataType.bind h₄ <;> cases h₅
      · exact .inr ⟨_, by rw [saveConstant, beq_iff_eq.1 h3], rfl⟩
      · exact .inl rfl
    rw [if_neg h3] at h₄
    by_cases h4 : (UInt32.ofNat t == tags.kTVMFFIStr) = true
    · rw [if_pos h4] at h₄
      obtain ⟨ok, size, s₃, hx, h₅⟩ := readsExactly_u64.bind h₄
      obtain ⟨bytes, s₄, h₆, h₇⟩ := stateT_bind_eq_ok h₅
      cases h₇
      exact (readEach_sized readsExactly_u8 hx h₆).imp_right fun he =>
        ⟨_, by rw [saveConstant, beq_iff_eq.1 h4, writeSizeT, List.append_assoc],
          by rw [he, List.append_assoc]⟩
    rw [if_neg h4] at h₄
    by_cases h5 : (UInt32.ofNat t == tags.kTVMFFIInt) = true
    · rw [if_pos h5] at h₄
      obtain ⟨ok, v, s₃, ⟨-, rfl⟩ | ⟨-, rfl⟩, h₅⟩ := readsExactly_u64.bind h₄ <;> cases h₅
      · exact .inr ⟨_, by rw [saveConstant, beq_iff_eq.1 h5], rfl⟩
      · exact .inl rfl
    rw [if_neg h5] at h₄
    by_cases h6 : (UInt32.ofNat t == tags.kTVMFFIFloat) = true
    · rw [if_pos h6] at h₄
      obtain ⟨ok, v, s₃, ⟨-, rfl⟩ | ⟨-, rfl⟩, h₅⟩ := readsExactly_u64.bind h₄ <;> cases h₅
      · exact .inr ⟨_, by rw [saveConstant, beq_iff_eq.1 h6], rfl⟩
      · exact .inl rfl
    rw [if_neg h6] at h₄
    cases h₄
  rcases readLE_cases h₁ with ⟨rfl, ht, rfl⟩ | ⟨-, rfl⟩ <;> rcases hpay with rfl | ⟨pre, hc, he⟩
  · exact .inl rfl
  · exact .inr (by rw [hc, he, writeU32, show (UInt32.ofNat t).toNat = t from Nat.mod_eq_of_lt ht,
      List.append_assoc])
  · exact .inl rfl
  · exact .inl (List.append_eq_nil.1 he.symm).2

section Codec

variable (tags : TypeIndex) (version : Bytes)

theorem loadConstants_cases : ∀ (n : Nat) {s cs s'}, (loadConstants tags n).run s = .ok (cs, s') →
    s' = [] ∨ cs.length = n ∧ s = cs.flatMap (saveConstant tags) ++ s'
  | 0, s, cs, s', h => by cases h; exact .inr ⟨rfl, rfl⟩
  | n + 1, s, cs, s', h₀ => by
    obtain ⟨c, s₁, h₁, h₂⟩ := stateT_bind_eq_ok h₀
    obtain ⟨cs₁, s₂, h₃, h₄⟩ := stateT_bind_eq_ok h₂
    cases h₄
    rcases loadConstant_cases tags h₁ with rfl | rfl <;>
      rcases loadConstants_cases n h₃ with rfl | ⟨hl, he⟩
    · exact .inl rfl
    · exact .inl (List.append_eq_nil.1 he.symm).2
    · exact .inl rfl
    · exact .inr ⟨by simp [hl], by simp [he]⟩

theorem loadConstantSection_cases {s s' : Bytes} {cs : List Constant}
    (h₀ : (loadConstantSection tags).run s = .ok (cs, s')) :
    s' = [] ∨ s = writeU64 (UInt64.ofNat cs.length) ++ cs.flatMap (saveConstant tags) ++ s' := by
  obtain ⟨⟨n, sz⟩, s₁, h₁, h₂⟩ := stateT_bind_eq_ok h₀
  obtain ⟨-, h₃⟩ := streamCheck_bind_ok h₂
  rcases readLE_cases h₁ with ⟨rfl, hsz, rfl⟩ | ⟨-, rfl⟩ <;>
    rcases loadConstants_cases tags _ h₃ with rfl | ⟨hl, he⟩
  · exact .inl rfl
  · exact .inr (by rw [hl, he, writeU64, toNat_uint64_ofNat hsz, List.append_assoc])
  · exact .inl rfl
  · exact .inl (List.append_eq_nil.1 he.symm).2

theorem loadHeader_sound {s s' : Bytes} {u : Unit} (h₀ : (loadHeader version).run s = .ok (u, s')) :
    s = saveHeader version ++ s' := by
  obtain ⟨ok₁, magic, s₁, hm, h₁⟩ := readsExactly_u64.bind h₀
  obtain ⟨rfl, h₂⟩ := streamCheck_bind_ok h₁
  obtain ⟨hmagic, h₃⟩ := streamCheck_bind_ok h₂
  obtain ⟨ok₂, v, s₂, hv, h₄⟩ := readsExactly_string.bind h₃
  obtain ⟨rfl, h₅⟩ := streamCheck_bind_ok h₄
  obtain ⟨hversion, rfl⟩ := streamCheck_ok h₅
  obtain ⟨-, rfl⟩ | ⟨⟨⟩, -⟩ := hm
  obtain ⟨-, rfl⟩ | ⟨⟨⟩, -⟩ := hv
  rw [beq_iff_eq.1 hmagic, beq_iff_eq.1 hversion, saveHeader, List.append_assoc]

/-- `LoadHeader` on every stream and host limit: the error it raises, or the bytes it reads. -/
theorem loadHeaderUpTo_run (hv : version.length < 2 ^ 64) (maxSize : Nat) (s : Bytes) :
    (loadHeaderUpTo version maxSize).run s =
      if ¬ (writeU64 kTVMVMBytecodeMagic).isPrefixOf s then .error (.invalidFormat "header")
      else if s.length < 16 then .error (.invalidFormat "version")
      else if maxSize < decodeLE ((s.drop 8).take 8) then
        .error (.resizeFailed (decodeLE ((s.drop 8).take 8)))
      else if (saveHeader version).isPrefixOf s then .ok ((), s.drop (saveHeader version).length)
      else .error (.invalidFormat "version") := by
  obtain ⟨⟨ok, mg⟩, s₁, hread⟩ : ∃ r s₁, readU64.run s = .ok (r, s₁) := ⟨_, _, rfl⟩
  by_cases hmagic : (writeU64 kTVMVMBytecodeMagic).isPrefixOf s
  swap
  · -- the magic number is not there: the header section's error
    rw [if_pos hmagic, loadHeaderUpTo, StateT.run_bind, hread, except_ok_bind]
    have hm := mt (isPrefixOf_writeU64_iff hread).2 hmagic
    cases ok
    · rfl
    · simp only [streamCheck_true, pure_bind]
      rw [show (mg == kTVMVMBytecodeMagic) = false from beq_false_of_ne fun h => hm ⟨rfl, h⟩]
      rfl
  rw [if_neg (not_not.2 hmagic)]
  obtain ⟨s₁, rfl⟩ := List.isPrefixOf_iff_prefix.1 hmagic
  have hdrop : (writeU64 kTVMVMBytecodeMagic ++ s₁).drop 8 = s₁ := List.drop_left' (length_writeU64 _)
  have hlen : (writeU64 kTVMVMBytecodeMagic ++ s₁).length = 8 + s₁.length := by simp
  rw [hdrop, hlen, loadHeaderUpTo, StateT.run_bind, readU64_writeU64, except_ok_bind]
  simp only [streamCheck_true, beq_self_eq_true, pure_bind]
  rw [StateT.run_bind, readStringUpTo_run (readU64_run s₁)]
  by_cases h8 : 8 + s₁.length < 16
  · -- the length field is cut: a short read
    have hshort : ((s₁.take 8).length == 8) = false := by simp; omega
    rw [if_pos h8, hshort, readString, readStringUpTo, StateT.run_bind, readU64_run s₁, hshort]
    rfl
  rw [if_neg h8]
  have hl : (s₁.take 8).length = 8 := by simp; omega
  have hn : (UInt64.ofNat (decodeLE (s₁.take 8))).toNat = decodeLE (s₁.take 8) := by
    have := decodeLE_lt (s₁.take 8)
    rw [hl] at this
    exact toNat_uint64_ofNat this
  have hfull : ((s₁.take 8).length == 8) = true := by rw [hl]; rfl
  simp only [hfull, hn, true_and]
  by_cases hm : maxSize < decodeLE (s₁.take 8)
  · rw [if_pos hm, if_pos hm]
    rfl
  rw [if_neg hm, if_neg hm]
  obtain ⟨⟨ok₂, v⟩, s₂, hstr⟩ := readString_ok s₁
  rw [hstr, except_ok_bind]
  by_cases hA : (saveHeader version).isPrefixOf (writeU64 kTVMVMBytecodeMagic ++ s₁)
  · obtain ⟨rest, hrest⟩ := List.isPrefixOf_iff_prefix.1 hA
    rw [if_pos hA, ← hrest, List.drop_left]
    rw [saveHeader, List.append_assoc, List.append_cancel_left_eq] at hrest
    rw [← hrest, readString_writeString hv] at hstr
    cases hstr
    simp
  rw [if_neg hA]
  cases ok₂
  · rfl
  by_cases hvv : v = version
  · subst hvv
    refine absurd (List.isPrefixOf_iff_prefix.2 ⟨s₂, ?_⟩) hA
    rcases readsExactly_string hstr with ⟨-, rfl⟩ | ⟨⟨⟩, -⟩
    simp [saveHeader]
  · simp only [streamCheck_true, pure_bind]
    rw [show (v == version) = false from beq_false_of_ne hvv]
    rfl

theorem loadGlobalSection_sound {s s' : Bytes} {table : List VMFuncInfo}
    (h₀ : loadGlobalSection.run s = .ok (table, s')) :
    s = writeVector VMFuncInfo.save table ++ s' := by
  obtain ⟨ok, table₁, s₁, ht, h₁⟩ := ReadsExactly.bind (readsExactly_vector readsExactly_funcInfo) h₀
  obtain ⟨rfl, h₂⟩ := streamCheck_bind_ok h₁
  cases h₂
  obtain ⟨-, rfl⟩ | ⟨⟨⟩, -⟩ := ht
  rfl

theorem loadCodeSection_sound {s s' : Bytes} {instrOffset instrData : List UInt64}
    (h₀ : loadCodeSection.run s = .ok ((instrOffset, instrData), s')) :
    s = writeVector writeU64 instrOffset ++ writeVector writeU64 instrData ++ s' := by
  obtain ⟨ok₁, offsets, s₁, ho, h₁⟩ := ReadsExactly.bind (readsExactly_vector readsExactly_u64) h₀
  obtain ⟨rfl, h₂⟩ := streamCheck_bind_ok h₁
  obtain ⟨ok₂, data, s₂, hd, h₃⟩ := ReadsExactly.bind (readsExactly_vector readsExactly_u64) h₂
  obtain ⟨rfl, h₄⟩ := streamCheck_bind_ok h₃
  cases h₄
  obtain ⟨-, rfl⟩ | ⟨⟨⟩, -⟩ := ho
  obtain ⟨-, rfl⟩ | ⟨⟨⟩, -⟩ := hd
  rw [List.append_assoc]

/-- What the section reader accepts is the sections `SaveToBinary` writes, then what it left. -/
theorem loadSections_sound {code r : Bytes} {e : VMExecutable}
    (h₀ : (loadSections tags version).run code = .ok (e, r)) :
    e.funcMap = buildFuncMap e.funcTable ∧ code = saveSections tags version e ++ r := by
  obtain ⟨u, s₁, h₁, h₂⟩ := stateT_bind_eq_ok h₀
  obtain ⟨table, s₂, h₃, h₄⟩ := stateT_bind_eq_ok h₂
  obtain ⟨cs, s₃, h₅, h₆⟩ := stateT_bind_eq_ok h₄
  obtain ⟨⟨offsets, data⟩, s₄, h₇, h₈⟩ := stateT_bind_eq_ok h₆
  cases h₈
  have hcode := loadCodeSection_sound h₇
  rcases loadConstantSection_cases tags h₅ with rfl | hcs
  · exact absurd hcode.symm (by simp [writeVector, writeU64, encodeLE])
  · refine ⟨rfl, ?_⟩
    rw [loadHeader_sound version h₁, loadGlobalSection_sound h₃, hcs, hcode]
    simp only [saveSections, saveGlobalSection, saveConstantSection, saveCodeSection,
      List.append_assoc]

end Codec


theorem zeroFilled_writeString {s S : Bytes} {z : Nat}
    (hz : s ++ List.replicate z 0 = writeString S) (hS : ∀ n, S ≠ List.replicate n 0) :
    ∃ k ≤ S.length, s = (writeString S).take (8 + k) ∧
      S.take k ++ List.replicate (S.length - k) 0 = S := by
  have hlen : s.length + z = 8 + S.length := by simpa using congrArg List.length hz
  have hdrop : ∀ n, (writeString S).drop (8 + n) = S.drop n := fun n => by
    rw [writeString, List.drop_append_eq_append_drop, List.drop_eq_nil_of_le (by simp),
      length_writeU64, Nat.add_sub_cancel_left, List.nil_append]
  by_cases h8 : 8 ≤ s.length
  · refine ⟨s.length - 8, by omega, ?_, ?_⟩
    · rw [← hz, show 8 + (s.length - 8) = s.length by omega, List.take_left]
    · have hd := hdrop (s.length - 8)
      rw [← hz, show 8 + (s.length - 8) = s.length by omega, List.drop_left] at hd
      rw [show S.length - (s.length - 8) = z by omega, hd, List.take_append_drop]
  · refine absurd ?_ (hS (z - (8 - s.length)))
    have hd := hdrop 0
    rw [← hz, List.drop_append_eq_append_drop, List.drop_eq_nil_of_le (by omega), List.nil_append,
      List.drop_replicate] at hd
    exact hd.symm

section Codec

variable (tags : TypeIndex) (version : Bytes)

theorem saveSections_ne_replicate (e : VMExecutable) (pad : Bytes) (n : Nat) :
    saveSections tags version e ++ pad ≠ List.replicate n 0 := fun h => by
  have hhead : (saveSections tags version e ++ pad).head? = some 29 := rfl
  rw [h] at hhead
  cases n <;> simp [List.replicate_succ] at hhead

theorem loadFromBinaryUpTo_writeString {maxSize : Nat} {S : Bytes} (hS : S.length < 2 ^ 64)
    (hm : S.length ≤ maxSize) (rest : Bytes) :
    (loadFromBinaryUpTo tags version maxSize).run (writeString S ++ rest) =
      (fun e => (e, rest)) <$> (loadSections tags version).run' S := by
  rw [loadFromBinaryUpTo, StateT.run_bind, readStringUpTo_writeString hS hm, except_ok_bind]
  show (StateT.lift ((loadSections tags version).run' S)).run rest = _
  rw [StateT.run_lift]
  rfl

theorem loadFromBinaryUpTo_take_writeString {maxSize : Nat} {S : Bytes} (hS : S.length < 2 ^ 64)
    (hm : S.length ≤ maxSize) {k : Nat} (hk : k ≤ S.length) :
    (loadFromBinaryUpTo tags version maxSize).run ((writeString S).take (8 + k)) =
      (fun e => (e, [])) <$>
        (loadSections tags version).run' (S.take k ++ List.replicate (S.length - k) 0) := by
  rw [loadFromBinaryUpTo, StateT.run_bind, readStringUpTo_take_writeString hS hm hk, except_ok_bind]
  show (StateT.lift ((loadSections tags version).run' _)).run [] = _
  rw [StateT.run_lift]
  rfl

/-- The section reader accepts exactly the sections `SaveToBinary` writes, followed by anything. -/
theorem loadSections_ok_iff (code r : Bytes) (e : VMExecutable) (hcode : code.length < 2 ^ 64) :
    (loadSections tags version).run code = .ok (e, r) ↔
      e.funcMap = buildFuncMap e.funcTable ∧ code = saveSections tags version e ++ r := by
  refine ⟨loadSections_sound tags version, ?_⟩
  rintro ⟨hmap, rfl⟩
  rw [List.length_append] at hcode
  rw [loadSections_saveSections tags version e (by omega) r, ← hmap]

/-- The blobs `LoadFromBinary` accepts on a host whose `resize` grants `maxSize` bytes. -/
theorem loadFromBinaryUpTo_ok_iff (maxSize : Nat) (s s' : Bytes) (e : VMExecutable) :
    (loadFromBinaryUpTo tags version maxSize).run s = .ok (e, s') ↔
      e.funcMap = buildFuncMap e.funcTable ∧ ∃ pad,
        (saveSections tags version e ++ pad).length < 2 ^ 64 ∧
        (saveSections tags version e ++ pad).length ≤ maxSize ∧
        (s = writeString (saveSections tags version e ++ pad) ++ s' ∨
          s' = [] ∧ ∃ z, s ++ List.replicate z 0 = writeString (saveSections tags version e ++ pad)) := by
  constructor
  · intro h₀
    obtain ⟨⟨ok, code⟩, s₁, h₁, h₂⟩ := stateT_bind_eq_ok h₀
    obtain ⟨e₁, he, h₃⟩ := except_bind_eq_ok h₂
    cases h₃
    obtain ⟨pad, hpad⟩ := stateT_run'_ok he
    obtain ⟨hmap, rfl⟩ := loadSections_sound tags version hpad
    obtain ⟨hm, h₁⟩ := readStringUpTo_ok h₁
    obtain ⟨hlen, ⟨-, hs⟩ | ⟨-, rfl, hx | hz⟩⟩ := readString_cases h₁
    · exact ⟨hmap, pad, hlen, hm, .inl hs⟩
    · exact absurd hx (saveSections_ne_replicate tags version e pad 0)
    · exact ⟨hmap, pad, hlen, hm, .inr ⟨rfl, hz⟩⟩
  · rintro ⟨hmap, pad, hlen, hm, hs⟩
    have hsec := loadSections_saveSections tags version e
      (by rw [List.length_append] at hlen; omega) pad
    obtain rfl | ⟨rfl, z, hz⟩ := hs
    · rw [loadFromBinaryUpTo_writeString tags version hlen hm, StateT.run'_eq, hsec, ← hmap]
      rfl
    · obtain ⟨k, hk, rfl, hfill⟩ := zeroFilled_writeString hz (saveSections_ne_replicate tags version e pad)
      rw [loadFromBinaryUpTo_take_writeString tags version hlen hm hk, hfill, StateT.run'_eq, hsec,
        ← hmap]
      rfl

end Codec

theorem loadSections_ok_iff_sections :
    (saveSections ⟨70, 69, 65, 1, 3, 5, by decide⟩ [48, 46, 49] ⟨[], [], [], [0], [1]⟩).length <
      2 ^ 64 ∧
    ((loadSections ⟨70, 69, 65, 1, 3, 5, by decide⟩ [48, 46, 49]).run
        (saveSections ⟨70, 69, 65, 1, 3, 5, by decide⟩ [48, 46, 49] ⟨[], [], [], [0], [1]⟩) =
          .ok (⟨[], [], [], [0], [1]⟩, []) ↔
      (⟨[], [], [], [0], [1]⟩ : VMExecutable).funcMap = buildFuncMap [] ∧
        saveSections ⟨70, 69, 65, 1, 3, 5, by decide⟩ [48, 46, 49] ⟨[], [], [], [0], [1]⟩ =
          saveSections ⟨70, 69, 65, 1, 3, 5, by decide⟩ [48, 46, 49] ⟨[], [], [], [0], [1]⟩ ++ []) :=
  have h : (saveSections ⟨70, 69, 65, 1, 3, 5, by decide⟩ [48, 46, 49]
      ⟨[], [], [], [0], [1]⟩).length < 2 ^ 64 := by
    simp [saveSections, saveHeader, saveGlobalSection, saveConstantSection, saveCodeSection]
  ⟨h, loadSections_ok_iff _ _ _ [] ⟨[], [], [], [0], [1]⟩ h⟩

theorem loadHeaderUpTo_run_hugeVersion :
    ([48, 46, 49] : Bytes).length < 2 ^ 64 ∧
    (loadHeaderUpTo [48, 46, 49] (2 ^ 62)).run (writeU64 kTVMVMBytecodeMagic ++ writeU64 0x8000000000000000) =
      if ¬ (writeU64 kTVMVMBytecodeMagic).isPrefixOf
          (writeU64 kTVMVMBytecodeMagic ++ writeU64 0x8000000000000000) then .error (.invalidFormat "header")
      else if (writeU64 kTVMVMBytecodeMagic ++ writeU64 0x8000000000000000).length < 16 then
        .error (.invalidFormat "version")
      else if 2 ^ 62 < decodeLE (((writeU64 kTVMVMBytecodeMagic ++ writeU64 0x8000000000000000).drop 8).take 8)
      then .error (.resizeFailed
        (decodeLE (((writeU64 kTVMVMBytecodeMagic ++ writeU64 0x8000000000000000).drop 8).take 8)))
      else if (saveHeader [48, 46, 49]).isPrefixOf (writeU64 kTVMVMBytecodeMagic ++ writeU64 0x8000000000000000)
      then .ok ((), (writeU64 kTVMVMBytecodeMagic ++ writeU64 0x8000000000000000).drop
        (saveHeader [48, 46, 49]).length)
      else .error (.invalidFormat "version") :=
  ⟨by decide, loadHeaderUpTo_run [48, 46, 49] (by decide) (2 ^ 62)
    (writeU64 kTVMVMBytecodeMagic ++ writeU64 0x8000000000000000)⟩

end Tvm.VM
