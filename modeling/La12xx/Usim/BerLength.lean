/-
# Six decoders of a length field

The library decodes a length of ISO/IEC 8825-1 at six places: the SUCI, the two
lists of `EF_SUCI_Calc_Info`, the public keys in the second of them, and the two
authentication keys. `Place` lists them, with what an earlier key has left in
the count of octets where the code does not reset it, and `Place.decode` is what
the code makes of a field at each of them: the length, and where the value is
taken from. `decode_iff` says for which fields that is right.
-/
import La12xx.Lib.Ber
import La12xx.Usim.AuthKeys
import La12xx.Usim.SuciCalcInfo

namespace La12xx
namespace Usim

open ByteMem Ber

/-- Where a length is decoded. -/
inductive Place where
  | suci
  | schemeList
  | keyList
  | publicKey (octets : ℕ)
  | kausf
  | kseaf (octets : ℕ)
deriving DecidableEq, Repr

namespace Place

/-- The length the code takes from the field at `pos`, and where it takes the
value from. -/
def decode (place : Place) (m : Mem) (pos : ℤ) : ℕ × ℤ :=
  match place with
  | suci | keyList =>
    let l := listLength m pos 0
    (l.1, pos + 1 + l.2)
  | schemeList =>
    let l := listLength m pos 1
    (l.1, pos + l.2)
  | publicKey octets =>
    let l := keyLength m pos 4 octets
    (l.1, pos + 1 + l.2)
  | kausf =>
    let l := keyLength m pos 1 0
    (l.1, pos + 1 + l.2)
  | kseaf octets =>
    let l := keyLength m pos 2 octets
    (l.1, pos + 1 + l.2)

/-- The field at `pos` is decoded as it should be. -/
def Right (place : Place) (m : Mem) (pos : ℤ) (f : LengthField) : Prop :=
  place.decode m pos = (f.value, pos + f.bytes.length)

/-- The condition under which a place decodes a field. -/
def Decodes (place : Place) (m : Mem) (pos : ℤ) : LengthField → Prop
  | .short _ _ =>
    match place with
    | publicKey octets | kseaf octets => octets = 0
    | _ => True
  | .long octets _ _ _ =>
    match place with
    | suci | keyList => octets.length = 127 ∧ 256 ≤ beValue octets ∧ beValue octets < 512
    | schemeList => False
    | publicKey _ => octetSum (bytes m (pos + 4) octets.length) = beValue octets
    | kausf => beValue octets < 256
    | kseaf _ => octetSum (bytes m (pos + 2) octets.length) = beValue octets

end Place

/-! ### The places in the functions -/

/-- The SUCI is taken with the length and from the place that are decoded. -/
theorem decodeSuci_eq (m : Mem) (suciLen : ℤ) (suci : Suci) :
    decodeSuci m suciLen suci =
      if suciLen < (Place.suci.decode m 1).1 then (-1, suci)
      else (0, ⟨(Place.suci.decode m 1).1, bytes m (Place.suci.decode m 1).2 (Place.suci.decode m 1).1⟩) := by
  have h : (1 : ℤ) + 1 = 2 := rfl
  simp only [decodeSuci, Place.decode, h]

/-- The schemes begin where the value of their list is taken from, and the list
of keys behind it. -/
theorem decodeSuciCalcInfo_eq {m : Mem} (h0 : m 0 = 0xa0) (info : SuciCalcInfo) :
    decodeSuciCalcInfo m info =
      let l := Place.schemeList.decode m 1
      let num := BitVec.ofNat 8 (l.1 / 2)
      let k := (listLength m 1 1).2
      if 16 < num.toNat then none
      else
        let info := loop num.toNat (schemeRound m k) { info with numProtectionSchemes := num }
        let p := l.2 + l.1
        if m p = 0xa1 then
          (readKeys m (m (Place.keyList.decode m (p + 1)).2) ((List.range num.toNat).map fun i => (keyIndex m k i).toNat)
            ⟨(Place.keyList.decode m (p + 1)).2, 0, info⟩).map KeyCursor.info
        else some info := by
  rw [decodeSuciCalcInfo, if_pos h0]
  rfl

/-- A public key is taken with the length and from the place that are decoded,
and the next pointer is one byte short of its end. -/
theorem keyRound_eq {m : Mem} {k : ℕ} (hk : k ≠ 0) (hk16 : k ≤ 16) (c : KeyCursor) (h81 : m (c.p + 3) = 0x81) :
    keyRound m 0x80 k c =
      let d := (Place.publicKey c.octets).decode m (c.p + 3 + 1)
      let info := c.info.setKeyId (k - 1) (m (c.p + 2))
      if 128 < d.1 then none
      else
        some ⟨d.2 + d.1 - 1, (keyLength m (c.p + 3 + 1) 4 c.octets).2,
          (info.setKeyLen (k - 1) (BitVec.ofNat 8 d.1)).setKey (k - 1)
            (copy (info.homeNwPublicKey (k - 1)) 0 m d.2 d.1)⟩ := by
  have hk' : ¬ 16 < k := by omega
  simp only [keyRound, hk, hk', if_false, and_false, if_true, h81, false_or, Place.decode]
  have e : ∀ a b : ℤ, c.p + 3 + 1 + 1 + a + b - 1 = c.p + 3 + 1 + a + b := fun a b => by ring
  have e' : c.p + 3 + 1 + 1 = c.p + 3 + 2 := by ring
  rw [e, e']
  exact if_congr Iff.rfl rfl rfl

/-- The authentication keys are taken with the lengths and from the places that
are decoded. -/
theorem decodeNasAuthKeys_eq {m : Mem} (h0 : m 0 = 0x80) (keys : NasAuthKeys)
    (h81 : m ((Place.kausf.decode m 1).2 + (Place.kausf.decode m 1).1) = 0x81) :
    decodeNasAuthKeys m keys =
      let a := Place.kausf.decode m 1
      let s := (Place.kseaf (keyLength m 1 1 0).2).decode m (a.2 + a.1 + 1)
      ⟨⟨0x80, bytes m a.2 a.1⟩, ⟨0x81, bytes m s.2 s.1⟩⟩ := by
  have e : (1 : ℤ) + 1 = 2 := rfl
  simp only [Place.decode, e] at h81 ⊢
  rw [decode_kausf h0 Prod.mk.eta.symm, if_pos h81]
  congr 3

/-! ### One field -/

section Field

variable {m : Mem} {pos : ℤ}

/-- A short field, for both ways to decode. -/
theorem toNat_of_short {n : ℕ} (hn : n ≤ 127) (h : Holds m pos [BitVec.ofNat 8 n]) : (m pos).toNat = n := by
  rw [(holds_cons.mp h).1, BitVec.toNat_ofNat]
  exact Nat.mod_eq_of_lt (by omega)

/-- The first byte of a long field. -/
theorem head_of_long {octets : List Byte} (hlen : octets.length ≤ 127)
    (h : Holds m pos (BitVec.ofNat 8 (0x80 + octets.length) :: octets)) (hpos : 1 ≤ octets.length) :
    (m pos).toNat = 0x80 + octets.length ∧ (m pos &&& 0x7f).toNat = octets.length ∧ Holds m (pos + 1) octets := by
  obtain ⟨hhead, hoct⟩ := holds_cons.mp h
  refine ⟨?_, ?_, hoct⟩
  · rw [hhead, BitVec.toNat_ofNat]
    exact Nat.mod_eq_of_lt (by omega)
  · rw [hhead, toNat_low_bits (by omega) (by omega)]
    omega

/-- A list length of a long field: the first byte counts, too. -/
theorem listLength_long {octets : List Byte} (hlen : octets.length ≤ 127)
    (h : Holds m pos (BitVec.ofNat 8 (0x80 + octets.length) :: octets)) (hpos : 1 ≤ octets.length) (c : ℕ) :
    listLength m pos c = (0x80 + octets.length + octetSum octets, octets.length) := by
  obtain ⟨hnat, hlow, hoct⟩ := head_of_long hlen h hpos
  rw [listLength, if_pos (by omega)]
  simp only [hlow, hnat, sum_range_eq_octetSum hoct]

/-- A key length of a long field: the bytes from `off` on are added up. -/
theorem keyLength_of_long {octets : List Byte} (hlen : octets.length ≤ 127)
    (h : Holds m pos (BitVec.ofNat 8 (0x80 + octets.length) :: octets)) (hpos : 1 ≤ octets.length) (off : ℤ) (c : ℕ) :
    keyLength m pos off c = (octetSum (bytes m (pos + off) octets.length), octets.length) := by
  obtain ⟨hnat, hlow, -⟩ := head_of_long hlen h hpos
  have hbytes : Holds m (pos + off) (bytes m (pos + off) octets.length) := by
    rw [Holds, length_bytes]
  have hsum := sum_range_eq_octetSum hbytes
  rw [length_bytes] at hsum
  rw [keyLength, if_pos (by omega)]
  simp only [hlow, hsum]

/-- Where the value behind a long field is. -/
theorem length_long (octets : List Byte) :
    pos + ((BitVec.ofNat 8 (0x80 + octets.length) :: octets : List Byte).length : ℤ) = pos + 1 + octets.length := by
  rw [List.length_cons]
  push_cast
  ring

/-- A short field is decoded where no count of octets is left over. -/
theorem right_short_iff (place : Place) {n : ℕ} (hn : n ≤ 127) (h : Holds m pos [BitVec.ofNat 8 n]) :
    place.Right m pos (.short n hn) ↔ place.Decodes m pos (.short n hn) := by
  have hnat := toNat_of_short hn h
  have hlist : ∀ c, listLength m pos c = (n, c) := fun c => by rw [listLength, if_neg (by omega), hnat]
  have hkey : ∀ off c, keyLength m pos off c = (n, c) := fun off c => by rw [keyLength, if_neg (by omega), hnat]
  simp only [Place.Right, LengthField.value, LengthField.bytes, List.length_singleton]
  cases place <;> simp [Place.decode, Place.Decodes, hlist, hkey]

/-- A long field is decoded where the bytes that are added up give its value, at
every place but that of the schemes. -/
theorem right_long_iff (place : Place) {octets : List Byte} (hpos : 1 ≤ octets.length) (hlen : octets.length ≤ 127)
    (hval : beValue octets < 2 ^ 31) (h : Holds m pos (BitVec.ofNat 8 (0x80 + octets.length) :: octets)) :
    place.Right m pos (.long octets hpos hlen hval) ↔ place.Decodes m pos (.long octets hpos hlen hval) := by
  obtain ⟨-, -, hoct⟩ := head_of_long hlen h hpos
  simp only [Place.Right, LengthField.value, LengthField.bytes, length_long]
  cases place with
  | suci | keyList =>
    simp only [Place.decode, Place.Decodes, listLength_long hlen h hpos, Prod.mk.injEq, and_true]
    exact head_add_octetSum_eq_iff hpos hlen
  | schemeList =>
    simp only [Place.decode, Place.Decodes, listLength_long hlen h hpos, Prod.mk.injEq, iff_false, not_and]
    intro _
    omega
  | publicKey c | kseaf c =>
    simp only [Place.decode, Place.Decodes, keyLength_of_long hlen h hpos, Prod.mk.injEq, and_true]
  | kausf =>
    simp only [Place.decode, Place.Decodes, keyLength_of_long hlen h hpos, Prod.mk.injEq, and_true,
      hoct.bytes_eq rfl]
    exact octetSum_eq_beValue_iff hpos

end Field

/-- **Which length fields each place decodes.** -/
theorem decode_iff (place : Place) (m : Mem) (pos : ℤ) (f : LengthField) (h : Holds m pos f.bytes) :
    place.Right m pos f ↔ place.Decodes m pos f := by
  cases f with
  | short n hn => exact right_short_iff place hn h
  | long octets hpos hlen hval => exact right_long_iff place hpos hlen hval h

/-- A length of 200 in one octet, in front of K_AUSF. -/
theorem decode_iff_kausf :
    Place.kausf.Right (ofList [0x81, 0xc8]) 0 (.long [0xc8] (by decide) (by decide) (by decide)) :=
  (decode_iff .kausf (ofList [0x81, 0xc8]) 0 (.long [0xc8] (by decide) (by decide) (by decide))
    (holds_ofList [0x81, 0xc8])).mpr (by simp [Place.Decodes, beValue])

/-- A length of 256 in two octets is taken for `1` in front of K_AUSF, and for
`131` in front of a SUCI. -/
theorem long_length_not_right :
    let f : LengthField := .long [0x01, 0x00] (by decide) (by decide) (by decide)
    let m := ofList f.bytes
    f.value = 256 ∧ Place.kausf.decode m 0 = (1, 3) ∧ Place.suci.decode m 0 = (131, 3) ∧
      ¬ ∀ (place : Place) (m : Mem) (pos : ℤ) (f : LengthField), Holds m pos f.bytes → place.Right m pos f := by
  intro f m
  refine ⟨by decide, by decide, by decide, fun h => ?_⟩
  have hk : Place.kausf.decode m 0 = (1, 3) := by decide
  have hr := h .kausf m 0 f (holds_ofList _)
  rw [Place.Right, hk] at hr
  exact absurd (congrArg Prod.fst hr) (by decide)

end Usim
end La12xx
