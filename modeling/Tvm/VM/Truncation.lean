import Tvm.VM.RoundTrip

namespace Tvm.VM

theorem readStringUpTo_take_writeString {maxSize : Nat} {S : Bytes} (hS : S.length < 2 ^ 64)
    (hm : S.length ≤ maxSize) {k : Nat} (hk : k ≤ S.length) :
    (readStringUpTo maxSize).run ((writeString S).take (8 + k)) =
      .ok ((k == S.length, S.take k ++ List.replicate (S.length - k) 0), []) := by
  have ht : (writeString S).take (8 + k) = writeU64 (UInt64.ofNat S.length) ++ S.take k := by
    simp [writeString, List.take_append_eq_append_take]
  have hraw : (readRaw S.length).run (S.take k) = .ok (S.take k, []) := by
    simp [readRaw, StateT.run, List.take_take, hk]
  have hlen : (S.take k).length = k := by simp [hk]
  rw [ht]
  simp [readStringUpTo, toNat_uint64_ofNat hS, hraw, hlen, Nat.not_lt.2 hm]

theorem readString_take_writeString {S : Bytes} (hS : S.length < 2 ^ 64) {k : Nat}
    (hk : k ≤ S.length) :
    readString.run ((writeString S).take (8 + k)) =
      .ok ((k == S.length, S.take k ++ List.replicate (S.length - k) 0), []) :=
  readStringUpTo_take_writeString hS hS.le hk

section Codec

variable (tags : TypeIndex) (version : Bytes)

theorem loadFromBinary_take_saveToBinary (e : VMExecutable)
    (h : (saveSections tags version e).length < 2 ^ 64) {k : Nat}
    (hk : k ≤ (saveSections tags version e).length) :
    (loadFromBinary tags version).run ((saveToBinary tags version e).take (8 + k)) =
      (fun e' => (e', [])) <$> (loadSections tags version).run'
        ((saveSections tags version e).take k ++
          List.replicate ((saveSections tags version e).length - k) 0) := by
  rw [loadFromBinary_eq, saveToBinary, StateT.run_bind, readString_take_writeString h hk,
    except_ok_bind]
  show (StateT.lift ((loadSections tags version).run' _)).run [] = _
  rw [StateT.run_lift]
  rfl

theorem loadFromBinary_dropLast (e : VMExecutable)
    (h : (saveSections tags version e).length < 2 ^ 64)
    (hlast : (saveSections tags version e).getLast? = some 0) :
    (loadFromBinary tags version).run (saveToBinary tags version e).dropLast =
      .ok (⟨e.constants, e.funcTable, buildFuncMap e.funcTable, e.instrOffset, e.instrData⟩, []) := by
  obtain ⟨ys, hys⟩ := List.getLast?_eq_some_iff.1 hlast
  have hS : (saveSections tags version e).length = ys.length + 1 := by simp [hys]
  have hcut : (saveToBinary tags version e).dropLast =
      (saveToBinary tags version e).take (8 + ys.length) := by
    rw [List.dropLast_eq_take, saveToBinary, length_writeString, hS]
    rfl
  have hfill : (saveSections tags version e).take ys.length ++
      List.replicate ((saveSections tags version e).length - ys.length) 0 =
        saveSections tags version e := by
    rw [hys]; simp
  have hsec := loadSections_saveSections tags version e h []
  rw [List.append_nil] at hsec
  rw [hcut, loadFromBinary_take_saveToBinary tags version e h (by omega), hfill, StateT.run'_eq,
    hsec]
  rfl

/-- A blob padded inside its string loads: nothing checks that the inner stream is used up. -/
theorem loadFromBinary_padded (e : VMExecutable) (pad : Bytes)
    (h : (saveSections tags version e ++ pad).length < 2 ^ 64) (rest : Bytes) :
    (loadFromBinary tags version).run (writeString (saveSections tags version e ++ pad) ++ rest) =
      .ok (⟨e.constants, e.funcTable, buildFuncMap e.funcTable, e.instrOffset, e.instrData⟩,
        rest) := by
  have hsec := loadSections_saveSections tags version e
    (by rw [List.length_append] at h; omega) pad
  rw [loadFromBinary_eq, StateT.run_bind, readString_writeString h, except_ok_bind]
  show (StateT.lift ((loadSections tags version).run' _)).run rest = _
  rw [StateT.run_lift, StateT.run'_eq, hsec]
  rfl

end Codec

theorem loadFromBinary_padded_byte :
    (saveSections ⟨70, 69, 65, 1, 3, 5, by decide⟩ [48, 46, 49] ⟨[], [], [], [0], [1]⟩ ++
      [7]).length < 2 ^ 64 ∧
    (loadFromBinary ⟨70, 69, 65, 1, 3, 5, by decide⟩ [48, 46, 49]).run
        (writeString (saveSections ⟨70, 69, 65, 1, 3, 5, by decide⟩ [48, 46, 49]
          ⟨[], [], [], [0], [1]⟩ ++ [7]) ++ []) =
      .ok (⟨[], [], [], [0], [1]⟩, []) :=
  have h : (saveSections ⟨70, 69, 65, 1, 3, 5, by decide⟩ [48, 46, 49] ⟨[], [], [], [0], [1]⟩ ++
      [7]).length < 2 ^ 64 := by
    simp [saveSections, saveHeader, saveGlobalSection, saveConstantSection, saveCodeSection]
  ⟨h, loadFromBinary_padded _ _ _ [7] h []⟩

/-- A program whose last instruction word is `1`, cut before its last byte, loads as the whole. -/
theorem loadFromBinary_dropLast_instrData :
    (loadFromBinary ⟨70, 69, 65, 1, 3, 5, by decide⟩ [48, 46, 49]).run
        (saveToBinary ⟨70, 69, 65, 1, 3, 5, by decide⟩ [48, 46, 49]
          ⟨[], [], [], [0], [1]⟩).dropLast =
      .ok (⟨[], [], [], [0], [1]⟩, []) :=
  loadFromBinary_dropLast _ _ _ (by simp [saveSections, saveHeader, saveGlobalSection,
    saveConstantSection, saveCodeSection]) (by decide)

end Tvm.VM
