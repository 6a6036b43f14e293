/-
# The authentication keys, written and read

`vtq_usim_write_nas_auth_keys` stores the length of a key in one byte;
`vtq_usim_read_nas_auth_keys` takes a byte above 127 for the number of octets
that follow and add up to the length. The module says which pairs of keys are
read back as they were written: those whose lengths are at most 127.
-/
import La12xx.Usim.Library

namespace La12xx
namespace Usim

open ByteMem Dialogue

/-- What is handed to `usim_write_transparent`. -/
def NasAuthKeys.bytes (keys : NasAuthKeys) : List Byte := keys.kausf.bytes ++ keys.kseaf.bytes

theorem NasAuthKeys.length_bytes (keys : NasAuthKeys) :
    keys.bytes.length = keys.kausf.value.length + keys.kseaf.value.length + 4 := by
  rw [NasAuthKeys.bytes, List.length_append, Tlv.length_bytes, Tlv.length_bytes]
  omega

/-- The buffer of the writer holds the keys, whatever was in it before. -/
theorem encodeNasAuthKeys_holds (buffer : Mem) (keys : NasAuthKeys) :
    Holds (encodeNasAuthKeys buffer keys).1 0 keys.bytes ∧
      (encodeNasAuthKeys buffer keys).2 = keys.bytes.length := by
  obtain ⟨h1, l1⟩ := putTlv_holds (b := (buffer, 0)) (a := 0) (holds_nil _ _) rfl keys.kausf
  obtain ⟨h2, l2⟩ := putTlv_holds h1 l1 keys.kseaf
  refine ⟨h2, ?_⟩
  rw [encodeNasAuthKeys, l2]
  simp [NasAuthKeys.bytes]

/-- Every memory that starts with what is written is read as the keys. -/
def ReadBack (keys : NasAuthKeys) : Prop :=
  ∀ m, Holds m 0 keys.bytes → ∀ keys₀, decodeNasAuthKeys m keys₀ = keys

/-! ### Short keys -/

/-- A length byte up to 127. -/
theorem keyLength_short {m : Mem} {pos : ℤ} {n : ℕ} (h : m pos = BitVec.ofNat 8 n) (hn : n ≤ 127) (off : ℤ)
    (octets : ℕ) : keyLength m pos off octets = (n, octets) := by
  have hnat : (m pos).toNat = n := by
    rw [h, BitVec.toNat_ofNat]
    exact Nat.mod_eq_of_lt (by omega)
  rw [keyLength, if_neg (by omega), hnat]

/-- How the first key is read when its tag is right. -/
theorem decode_kausf {m : Mem} (h0 : m 0 = 0x80) {n k : ℕ} (hl : keyLength m 1 1 0 = (n, k)) (keys₀ : NasAuthKeys) :
    decodeNasAuthKeys m keys₀ =
      ⟨⟨0x80, bytes m (2 + k) n⟩,
        if m (2 + k + n) = 0x81 then
          ⟨0x81, bytes m (2 + k + n + 2 + (keyLength m (2 + k + n + 1) 2 k).2)
            (keyLength m (2 + k + n + 1) 2 k).1⟩
        else { keys₀.kseaf with tag := m (2 + k + n) }⟩ := by
  simp only [decodeNasAuthKeys, h0, if_true, hl]
  congr 1
  split
  · next h1 => rw [h1]
  · rfl

/-- What a memory that starts with the keys holds, byte by byte. -/
theorem holds_keys {m : Mem} {keys : NasAuthKeys} (h : Holds m 0 keys.bytes) :
    m 0 = keys.kausf.tag ∧ m 1 = BitVec.ofNat 8 keys.kausf.value.length ∧ Holds m 2 keys.kausf.value ∧
      m (2 + keys.kausf.value.length) = keys.kseaf.tag ∧
      m (3 + keys.kausf.value.length) = BitVec.ofNat 8 keys.kseaf.value.length ∧
      Holds m (4 + keys.kausf.value.length) keys.kseaf.value := by
  simp only [NasAuthKeys.bytes, Tlv.bytes, holds_append, holds_cons, List.length_cons] at h
  obtain ⟨⟨h0, h1, h2⟩, h3, h4, h5⟩ := h
  push_cast at h3 h4 h5
  have e3 : (0 : ℤ) + (keys.kausf.value.length + 1 + 1) = 2 + keys.kausf.value.length := by ring
  have e4 : (2 : ℤ) + keys.kausf.value.length + 1 = 3 + keys.kausf.value.length := by ring
  have e5 : (3 : ℤ) + keys.kausf.value.length + 1 = 4 + keys.kausf.value.length := by ring
  rw [e3] at h3 h4 h5
  rw [e4] at h4 h5
  rw [e5] at h5
  exact ⟨h0, h1, h2, h3, h4, h5⟩

/-- Short keys are read back. -/
theorem readBack_of_short {keys : NasAuthKeys} (hta : keys.kausf.tag = 0x80) (hts : keys.kseaf.tag = 0x81)
    (hla : keys.kausf.value.length ≤ 127) (hls : keys.kseaf.value.length ≤ 127) : ReadBack keys := by
  intro m h keys₀
  obtain ⟨h0, h1, h2, h3, h4, h5⟩ := holds_keys h
  have hk : keyLength m 1 1 0 = (keys.kausf.value.length, 0) := keyLength_short h1 hla 1 0
  rw [hta] at h0
  rw [hts] at h3
  rw [decode_kausf h0 hk]
  have e : (2 : ℤ) + (0 : ℕ) = 2 := by norm_num
  have e3 : (2 : ℤ) + keys.kausf.value.length + 1 = 3 + keys.kausf.value.length := by ring
  have e4 : (2 : ℤ) + keys.kausf.value.length + 2 + (0 : ℕ) = 4 + keys.kausf.value.length := by push_cast; ring
  rw [e, if_pos h3, e3, keyLength_short h4 hls, h2.bytes_eq rfl, e4, h5.bytes_eq rfl, ← hta, ← hts]

/-- `vtq_usim_read_nas_auth_keys` gives short keys back, from every card that
delivers what was written. -/
theorem readNasAuthKeys_of_short {S : Sim} {E : Env} {σ : Type} {card : σ → Apdu → σ × Resp} {s : σ}
    {keys : NasAuthKeys} (hta : keys.kausf.tag = 0x80) (hts : keys.kseaf.tag = 0x81)
    (hla : keys.kausf.value.length ≤ 127) (hls : keys.kseaf.value.length ≤ 127) {authKeyLen : ℤ}
    (hmem : E.malloc authKeyLen) {out : ReadOut}
    (hread : (run card (readTransparent S E nasAuthKeysFileid 0 E.heap dir5gs) s).val = some out)
    (hret : 0 ≤ out.ret) (hlen : out.len ≤ authKeyLen) (hbuf : Holds out.buf 0 keys.bytes) (keys₀ : NasAuthKeys) :
    (run card (readNasAuthKeys S E keys₀ authKeyLen) s).val = some (0, keys) := by
  rw [readNasAuthKeys, if_neg (not_not.mpr hmem), run_bind, hread]
  show (run card _ _).val = _
  rw [if_neg (not_lt.mpr hret), if_neg (not_lt.mpr hlen), readBack_of_short hta hts hla hls out.buf hbuf keys₀]
  rfl

/-! ### Long keys -/

/-- A memory that holds the list and then one byte over and over. -/
def padded (l : List Byte) (v : Byte) : Mem := fun p => if p < l.length then ofList l p else v

theorem holds_padded (l : List Byte) (v : Byte) : Holds (padded l v) 0 l := by
  refine (bytes_eq_iff.mpr ?_).trans (holds_ofList l)
  intro p _ hp
  exact if_pos (by omega)

/-- A list that ends behind `l` ends with the padding. -/
theorem getD_of_padded {l vs : List Byte} {v : Byte} {a : ℤ} (h : Holds (padded l v) a vs) (h0 : vs ≠ [])
    (ha : l.length < a + vs.length) : vs.getD (vs.length - 1) 0 = v := by
  have hpos : 0 < vs.length := List.length_pos_iff.mpr h0
  rw [← h.getD_eq (Nat.sub_lt hpos one_pos)]
  exact if_neg (by omega)

/-- The octets a length byte above 127 asks for. -/
theorem toNat_low_bits {n : ℕ} (h : 127 < n) (hn : n < 256) :
    (BitVec.ofNat 8 n &&& 0x7f).toNat = n - 128 := by
  rw [BitVec.toNat_and, BitVec.toNat_ofNat, Nat.mod_eq_of_lt hn]
  show n &&& (2 ^ 7 - 1) = n - 128
  rw [Nat.and_two_pow_sub_one_eq_mod]
  omega

/-- A length byte above 127: `n - 128` octets, and for `128` the length `0`. -/
theorem keyLength_long {m : Mem} {pos : ℤ} {n : ℕ} (h : m pos = BitVec.ofNat 8 n) (hn : 127 < n) (hn' : n < 256)
    (off : ℤ) (octets : ℕ) :
    (keyLength m pos off octets).2 = n - 128 ∧ (n = 128 → (keyLength m pos off octets).1 = 0) := by
  have hnat : (m pos).toNat = n := by
    rw [h, BitVec.toNat_ofNat]
    exact Nat.mod_eq_of_lt hn'
  have hlow : (m pos &&& 0x7f).toNat = n - 128 := by
    rw [h]
    exact toNat_low_bits hn hn'
  rw [keyLength, if_pos (by omega)]
  simp only [hlow]
  refine ⟨trivial, ?_⟩
  rintro rfl
  rfl

/-- Where the second key was read from, when the keys are read back. -/
theorem kseaf_holds_of_decode {m : Mem} {keys keys₀ : NasAuthKeys} (h0 : m 0 = 0x80) (hts : keys.kseaf.tag = 0x81)
    (hd : decodeNasAuthKeys m keys₀ = keys) {n k : ℕ} (hl : keyLength m 1 1 0 = (n, k)) :
    n = keys.kausf.value.length ∧ m (2 + k + n) = 0x81 ∧
      (keyLength m (2 + k + n + 1) 2 k).1 = keys.kseaf.value.length ∧
      Holds m (2 + k + n + 2 + (keyLength m (2 + k + n + 1) 2 k).2) keys.kseaf.value := by
  rw [decode_kausf h0 hl] at hd
  have hn : n = keys.kausf.value.length := by rw [← hd, ByteMem.length_bytes]
  have htag : m (2 + k + n) = 0x81 := by
    by_contra hne
    rw [if_neg hne] at hd
    rw [← hd] at hts
    exact hne hts
  rw [if_pos htag] at hd
  refine ⟨hn, htag, ?_, ?_⟩
  · rw [← hd, ByteMem.length_bytes]
  · unfold Holds
    rw [← hd, ByteMem.length_bytes]

theorem add_one_ne_self (x : Byte) : x + 1 ≠ x := by
  intro h
  have h1 : (1 : Byte) = 0 := by
    calc (1 : Byte) = x + 1 - x := by ring
      _ = x - x := by rw [h]
      _ = 0 := by ring
  exact absurd h1 (by decide)

/-- A second key that ends behind the keys is not read back. -/
theorem not_holds_behind {keys : NasAuthKeys} {a : ℤ} (h0 : keys.kseaf.value ≠ [])
    (ha : 4 + keys.kausf.value.length < a) :
    ¬ Holds (padded keys.bytes (keys.kseaf.value.getD (keys.kseaf.value.length - 1) 0 + 1)) a
      keys.kseaf.value := by
  intro h
  have hlen := keys.length_bytes
  have hlast := getD_of_padded h h0 (by omega)
  exact add_one_ne_self _ hlast.symm

section Long

variable {keys : NasAuthKeys} (hta : keys.kausf.tag = 0x80) (hts : keys.kseaf.tag = 0x81)
include hta hts

/-- A long second key is not read back. -/
theorem not_readBack_of_long_kseaf (hla : keys.kausf.value.length ≤ 127) (hls : 127 < keys.kseaf.value.length)
    (hls' : keys.kseaf.value.length < 256) : ¬ ReadBack keys := by
  intro hback
  have hne : keys.kseaf.value ≠ [] := List.length_pos_iff.mp (by omega)
  have hm := holds_padded keys.bytes (keys.kseaf.value.getD (keys.kseaf.value.length - 1) 0 + 1)
  set m := padded keys.bytes (keys.kseaf.value.getD (keys.kseaf.value.length - 1) 0 + 1)
  obtain ⟨h0, h1, -, -, h4, -⟩ := holds_keys hm
  obtain ⟨-, -, hlen, hholds⟩ :=
    kseaf_holds_of_decode (h0.trans hta) hts (hback m hm keys) (keyLength_short h1 hla 1 0)
  have e : (2 : ℤ) + (0 : ℕ) + keys.kausf.value.length + 1 = 3 + keys.kausf.value.length := by push_cast; ring
  rw [e] at hlen hholds
  obtain ⟨hocts, hzero⟩ := keyLength_long h4 hls hls' 2 0
  have h128 : keys.kseaf.value.length ≠ 128 := fun he => by
    rw [hzero he] at hlen
    omega
  refine not_holds_behind hne ?_ hholds
  push_cast
  omega

/-- A long first key is not read back, and takes the second one with it. -/
theorem not_readBack_of_long_kausf (hla : 127 < keys.kausf.value.length) (hla' : keys.kausf.value.length < 256) :
    ¬ ReadBack keys := by
  intro hback
  -- the memory after the keys is chosen against the second key
  have key : ∀ v, ∃ k : ℕ, 0 < k ∧ padded keys.bytes v (2 + k + keys.kausf.value.length) = 0x81 ∧
      ∃ c : ℕ, Holds (padded keys.bytes v) (2 + k + keys.kausf.value.length + 2 + c) keys.kseaf.value := by
    intro v
    have hm := holds_padded keys.bytes v
    obtain ⟨h0, h1, -, -, -, -⟩ := holds_keys hm
    obtain ⟨hocts, hzero⟩ := keyLength_long h1 hla hla' 1 0
    obtain ⟨hn, htag, -, hholds⟩ := kseaf_holds_of_decode (h0.trans hta) hts (hback _ hm keys)
      (Prod.mk.eta (p := keyLength (padded keys.bytes v) 1 1 0)).symm
    have h128 : keys.kausf.value.length ≠ 128 := fun he => by
      rw [hzero he] at hn
      omega
    rw [hn] at htag hholds
    exact ⟨_, by omega, htag, _, hholds⟩
  by_cases hne : keys.kseaf.value = []
  · obtain ⟨k, hk, htag, -⟩ := key 0
    have hlen := keys.length_bytes
    rw [hne, List.length_nil] at hlen
    -- the tag would be the length byte `0` of the second key, or the padding
    have h0 : padded keys.bytes 0 (2 + k + keys.kausf.value.length) = 0 := by
      rcases Nat.eq_or_lt_of_le hk with rfl | hk2
      · obtain ⟨-, -, -, -, h4, -⟩ := holds_keys (holds_padded keys.bytes 0)
        rw [hne, List.length_nil] at h4
        exact h4
      · exact if_neg (by omega)
    rw [h0] at htag
    exact absurd htag (by decide)
  · obtain ⟨k, hk, -, c, hholds⟩ := key (keys.kseaf.value.getD (keys.kseaf.value.length - 1) 0 + 1)
    refine not_holds_behind hne ?_ hholds
    omega

end Long

/-- **The keys are read back exactly when neither is longer than 127 bytes.** -/
theorem readBack_iff (keys : NasAuthKeys) (hta : keys.kausf.tag = 0x80) (hts : keys.kseaf.tag = 0x81)
    (hfit : keys.bytes.length ≤ 251) :
    (∀ buffer, bytes (encodeNasAuthKeys buffer keys).1 0 (encodeNasAuthKeys buffer keys).2.toNat = keys.bytes) ∧
      (ReadBack keys ↔ keys.kausf.value.length ≤ 127 ∧ keys.kseaf.value.length ≤ 127) := by
  have hlen := keys.length_bytes
  constructor
  · intro buffer
    obtain ⟨h, hl⟩ := encodeNasAuthKeys_holds buffer keys
    exact h.bytes_eq (by omega)
  · constructor
    · intro hback
      by_contra hlong
      by_cases hla : keys.kausf.value.length ≤ 127
      · exact not_readBack_of_long_kseaf hta hts hla (by omega) (by omega) hback
      · exact not_readBack_of_long_kausf hta hts (by omega) (by omega) hback
    · intro ⟨hla, hls⟩
      exact readBack_of_short hta hts hla hls

/-- Two keys of 32 bytes. -/
theorem readBack_iff_short :
    ReadBack ⟨⟨0x80, List.replicate 32 0xaa⟩, ⟨0x81, List.replicate 32 0xbb⟩⟩ :=
  (readBack_iff ⟨⟨0x80, List.replicate 32 0xaa⟩, ⟨0x81, List.replicate 32 0xbb⟩⟩ rfl rfl (by decide +kernel)).2.mpr
    (by decide +kernel)

/-- A first key of 128 bytes is read as an empty one. -/
theorem long_key_not_readBack :
    let keys : NasAuthKeys := ⟨⟨0x80, List.replicate 128 0xaa⟩, ⟨0x81, List.replicate 32 0xbb⟩⟩
    keys.bytes.length ≤ 251 ∧ (decodeNasAuthKeys (ofList keys.bytes) keys).kausf.value = [] ∧ ¬ ReadBack keys := by
  intro keys
  have hempty : (decodeNasAuthKeys (ofList keys.bytes) keys).kausf.value = [] := by decide +kernel
  refine ⟨by decide +kernel, hempty, fun h => ?_⟩
  rw [h _ (holds_ofList keys.bytes) keys] at hempty
  exact absurd hempty (by decide +kernel)

end Usim
end La12xx
