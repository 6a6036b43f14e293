/-
# The two lists of EF_SUCI_Calc_Info

What `vtq_usim_read_suci_calc_info` makes of a file that has the form it is
meant for. The identifiers of the schemes are taken from consecutive bytes of a
list of pairs, and the indices from the bytes behind them; the pointer that
walks the keys is one byte short after the first key. `calcInfo_iff` says for
which lists of schemes the structure is right whatever the keys are. Against the
others a second key is chosen on which the pointer never finds a key again
(`farKey`).
-/
import La12xx.Usim.Delivery
import La12xx.Usim.SuciCalcInfo

namespace La12xx
namespace Usim

open ByteMem Dialogue

/-! ### The file -/

/-- A scheme: its identifier and the index of its key, `0` for none. -/
structure Scheme where
  id : Byte
  index : Byte
deriving DecidableEq, Repr

/-- A key of the home network: its identifier and its bytes. -/
structure NwKey where
  id : Byte
  bytes : List Byte
deriving DecidableEq, Repr

/-- The bytes of the list of schemes. -/
def schemeBytes (schemes : List Scheme) : List Byte := schemes.flatMap fun s => [s.id, s.index]

def NwKey.tlvs (k : NwKey) : List Byte := [0x80, 0x01, k.id, 0x81, BitVec.ofNat 8 k.bytes.length] ++ k.bytes

/-- The bytes of the list of keys. -/
def keyBytes (keys : List NwKey) : List Byte := keys.flatMap NwKey.tlvs

/-- A list behind its tag and its length. -/
def listTlv (tag : Byte) (l : List Byte) : List Byte := tag :: BitVec.ofNat 8 l.length :: l

/-- The file: the list of schemes and the list of keys. -/
def suciCalcInfoFile (schemes : List Scheme) (keys : List NwKey) : List Byte :=
  listTlv 0xa0 (schemeBytes schemes) ++ listTlv 0xa1 (keyBytes keys)

/-- The indices other than `0`. -/
def usedIndices (schemes : List Scheme) : List Byte := (schemes.map Scheme.index).filter (· ≠ 0)

/-- The keys are used in order, each once. -/
def UsedInOrder (schemes : List Scheme) : Prop :=
  usedIndices schemes = (List.range (usedIndices schemes).length).map fun i => BitVec.ofNat 8 (i + 1)

/-- The caller's structure is filled in as the file says. -/
structure CalcInfoRight (schemes : List Scheme) (keys : List NwKey) (info : SuciCalcInfo) : Prop where
  num : info.numProtectionSchemes = BitVec.ofNat 8 schemes.length
  ids : ∀ i s, schemes[i]? = some s → info.protectionSchemeIds i = s.id
  keys : ∀ k key, keys[k]? = some key →
    info.homeNwPublicKeyId k = key.id ∧ info.homeNwPubKeyLen k = BitVec.ofNat 8 key.bytes.length ∧
      Holds (info.homeNwPublicKey k) 0 key.bytes

/-- Every list of keys that goes with the schemes is read as it is, from every
card that delivers the file and whatever the caller's structure holds. -/
def CalcInfoRead (schemes : List Scheme) : Prop :=
  ∀ keys : List NwKey, keys.length = (usedIndices schemes).length → (keyBytes keys).length < 128 →
    ∀ (S : Sim) (E : Env) (σ : Type) (card : σ → Apdu → σ × Resp) (s : σ) (info : SuciCalcInfo) (size : ℤ), E.malloc size → (suciCalcInfoFile schemes keys).length ≤ size →
      Delivers S E suciCalcInfoFileid dir5gs card s (suciCalcInfoFile schemes keys) →
      ∃ info', (run card (readSuciCalcInfo S E info size) s).val = some (0, info') ∧ CalcInfoRight schemes keys info'

/-- The condition on the bytes `a₀ a₁ …` of the list of schemes: `aᵢ` and `a₂ᵢ`
are equal for every scheme, there is one key at most, and as many of `a₁ … aₙ`
are not `0` as there are keys. -/
def SchemesFit (schemes : List Scheme) : Prop :=
  (∀ i < schemes.length, (schemeBytes schemes).getD i 0 = (schemeBytes schemes).getD (2 * i) 0) ∧
    (usedIndices schemes).length ≤ 1 ∧
    ((((schemeBytes schemes).drop 1).take schemes.length).filter (· ≠ 0)).length = (usedIndices schemes).length

instance (schemes : List Scheme) : Decidable (SchemesFit schemes) := inferInstanceAs (Decidable (_ ∧ _ ∧ _))

section Bytes

variable {schemes : List Scheme}

theorem length_schemeBytes : ∀ schemes : List Scheme, (schemeBytes schemes).length = 2 * schemes.length
  | [] => rfl
  | s :: schemes => by
    have ih := length_schemeBytes schemes
    rw [schemeBytes, List.flatMap_cons, List.length_append, ← schemeBytes, ih]
    simp only [List.length_cons, List.length_nil]
    omega

/-- The identifiers are the bytes at even places, the indices those behind them. -/
theorem getD_schemeBytes : ∀ {schemes : List Scheme} {i : ℕ} {s : Scheme}, schemes[i]? = some s →
    (schemeBytes schemes).getD (2 * i) 0 = s.id ∧ (schemeBytes schemes).getD (2 * i + 1) 0 = s.index
  | [], _, _, h => by simp at h
  | t :: schemes, 0, s, h => by
    obtain rfl : t = s := by simpa using h
    exact ⟨rfl, rfl⟩
  | t :: schemes, i + 1, s, h => @getD_schemeBytes schemes i s (by simpa using h)

theorem NwKey.length_tlvs (k : NwKey) : k.tlvs.length = 5 + k.bytes.length := by
  rw [NwKey.tlvs, List.length_append]
  rfl

/-- An index is at most the number of keys. -/
theorem toNat_index_le (hused : UsedInOrder schemes) (hn : schemes.length ≤ 16) {s : Scheme} (hs : s ∈ schemes) :
    s.index.toNat ≤ (usedIndices schemes).length := by
  by_cases h0 : s.index = 0
  · rw [h0]
    exact Nat.zero_le _
  have hmem : s.index ∈ usedIndices schemes :=
    List.mem_filter.mpr ⟨List.mem_map.mpr ⟨s, hs, rfl⟩, decide_eq_true h0⟩
  have hle : (usedIndices schemes).length ≤ 16 := by
    refine (List.length_filter_le _ _).trans ?_
    rwa [List.length_map]
  rw [hused] at hmem
  obtain ⟨i, hi, hindex⟩ := List.mem_map.mp hmem
  have hi' := List.mem_range.mp hi
  rw [← hindex, BitVec.toNat_ofNat, Nat.mod_eq_of_lt (by omega)]
  omega

/-- Where the identifiers are read as they are, each of the bytes that are read
as indices is one. -/
theorem exists_index (hfit : ∀ i < schemes.length, (schemeBytes schemes).getD i 0 = (schemeBytes schemes).getD (2 * i) 0) :
    ∀ {j : ℕ}, 1 ≤ j → j ≤ schemes.length → ∃ s ∈ schemes, (schemeBytes schemes).getD j 0 = s.index := by
  intro j
  induction j using Nat.strong_induction_on with
  | _ j ih =>
    intro h1 hj
    rcases Nat.even_or_odd' j with ⟨i, rfl | rfl⟩
    · rw [← hfit i (by omega)]
      exact ih i (by omega) (by omega) (by omega)
    · have hi : i < schemes.length := by omega
      exact ⟨schemes[i], List.getElem_mem hi, (getD_schemeBytes (List.getElem?_eq_getElem hi)).2⟩

end Bytes

/-! ### The loops -/

section Loops

variable {m : Mem} {idTag : Byte}

/-- What the loop over the schemes leaves. -/
structure SchemesRead (m : Mem) (i : ℕ) (info₀ info : SuciCalcInfo) : Prop where
  num : info.numProtectionSchemes = info₀.numProtectionSchemes
  ids : ∀ j < i, info.protectionSchemeIds j = m (2 + j)
  keyId : ∀ j, info.homeNwPublicKeyId j = 0 ∨ info.homeNwPublicKeyId j = info₀.homeNwPublicKeyId j

theorem SchemesRead.round {i : ℕ} {info₀ info : SuciCalcInfo} (h : SchemesRead m i info₀ info) :
    SchemesRead m (i + 1) info₀ (schemeRound m 1 i info) := by
  have hids : ∀ j < i + 1, Function.update info.protectionSchemeIds i (m (1 + (1 : ℕ) + i)) j = m (2 + j) := by
    intro j hj
    rcases Nat.lt_succ_iff_lt_or_eq.mp hj with hlt | rfl
    · rw [Function.update_of_ne hlt.ne]
      exact h.ids j hlt
    · rw [Function.update_self, Nat.cast_one]
      rfl
  have hkey : ∀ j, Function.update info.homeNwPublicKeyId i 0 j = 0 ∨
      Function.update info.homeNwPublicKeyId i 0 j = info₀.homeNwPublicKeyId j := by
    intro j
    by_cases hj : j = i
    · subst hj
      exact .inl (Function.update_self ..)
    · rw [Function.update_of_ne hj]
      exact h.keyId j
  rw [schemeRound]
  by_cases h0 : keyIndex m 1 i = 0
  · simp only [h0, if_true]
    exact ⟨h.num, hids, hkey⟩
  · simp only [h0, if_false]
    exact ⟨h.num, hids, h.keyId⟩

theorem schemesRead_loop (m : Mem) (n : ℕ) (info₀ : SuciCalcInfo) :
    SchemesRead m n info₀ (loop n (schemeRound m 1) info₀) :=
  loop_inv (I := fun i => SchemesRead m i info₀) ⟨rfl, fun j hj => absurd hj (Nat.not_lt_zero j), fun _ => .inr rfl⟩
    fun _ _ _ h => h.round

/-- A round over the keys leaves the schemes alone. -/
theorem keyRound_schemes {k : ℕ} {c c' : KeyCursor} (h : keyRound m idTag k c = some c') :
    c'.info.numProtectionSchemes = c.info.numProtectionSchemes ∧ c'.info.protectionSchemeIds = c.info.protectionSchemeIds := by
  have hset : (if idTag = 0x80 then c.info.setKeyId (k - 1) (m (c.p + 2)) else c.info).numProtectionSchemes =
        c.info.numProtectionSchemes ∧
      (if idTag = 0x80 then c.info.setKeyId (k - 1) (m (c.p + 2)) else c.info).protectionSchemeIds =
        c.info.protectionSchemeIds := by
    split <;> exact ⟨rfl, rfl⟩
  rw [keyRound] at h
  split at h
  · obtain rfl := Option.some.inj h
    exact ⟨rfl, rfl⟩
  split at h
  · simp at h
  dsimp only at h
  split at h
  · split at h
    · simp at h
    · obtain rfl := Option.some.inj h
      exact hset
  · obtain rfl := Option.some.inj h
    exact hset

theorem readKeys_schemes : ∀ {ks : List ℕ} {c c' : KeyCursor}, readKeys m idTag ks c = some c' →
    c'.info.numProtectionSchemes = c.info.numProtectionSchemes ∧ c'.info.protectionSchemeIds = c.info.protectionSchemeIds
  | [], _, _, h => by
    obtain rfl := Option.some.inj h
    exact ⟨rfl, rfl⟩
  | k :: ks, c, c', h => by
    obtain ⟨c₁, hround, hrest⟩ := Option.bind_eq_some_iff.mp h
    obtain ⟨hnum, hids⟩ := keyRound_schemes hround
    obtain ⟨hnum', hids'⟩ := readKeys_schemes hrest
    exact ⟨hnum'.trans hnum, hids'.trans hids⟩

/-- Schemes without a key are passed over. -/
theorem readKeys_zeros : ∀ {ks rest : List ℕ} {c : KeyCursor}, (∀ k ∈ ks, k = 0) →
    readKeys m idTag (ks ++ rest) c = readKeys m idTag rest c
  | [], _, _, _ => rfl
  | k :: ks, rest, c, h => by
    obtain rfl : k = 0 := h k List.mem_cons_self
    exact @readKeys_zeros ks rest c fun k hk => h k (List.mem_cons_of_mem _ hk)

theorem readKeys_of_zeros {ks : List ℕ} {c : KeyCursor} (h : ∀ k ∈ ks, k = 0) : readKeys m idTag ks c = some c := by
  have hpass := @readKeys_zeros m idTag ks [] c h
  rwa [List.append_nil] at hpass

/-- Where the pointer is at a key, the key is read, and the pointer ends one
byte short of its end. -/
theorem keyRound_key {key : NwKey} {c : KeyCursor} (h : Holds m c.p key.tlvs) (hlen : key.bytes.length ≤ 127)
    (h0 : c.octets = 0) {k : ℕ} (hk : k ≠ 0) (hk16 : k ≤ 16) :
    keyRound m 0x80 k c = some ⟨c.p + key.tlvs.length - 1, 0,
      ((c.info.setKeyId (k - 1) key.id).setKeyLen (k - 1) (BitVec.ofNat 8 key.bytes.length)).setKey (k - 1)
        (copy ((c.info.setKeyId (k - 1) key.id).homeNwPublicKey (k - 1)) 0 m (c.p + 5) key.bytes.length)⟩ := by
  simp only [NwKey.tlvs, List.cons_append, List.nil_append, holds_cons, add_assoc] at h
  norm_num at h
  obtain ⟨-, -, hid, htag, hbyte, -⟩ := h
  have hnat : (m (c.p + 4)).toNat = key.bytes.length := by
    rw [hbyte, BitVec.toNat_ofNat]
    exact Nat.mod_eq_of_lt (by omega)
  have e4 : c.p + 3 + 1 = c.p + 4 := by ring
  have hkl : keyLength m (c.p + 3 + 1) 4 c.octets = (key.bytes.length, 0) := by
    rw [keyLength, e4, hnat, if_neg (by omega), h0]
  have hk' : ¬ 16 < k := by omega
  have hlen' : ¬ 128 < key.bytes.length := by omega
  simp only [keyRound, hk, hk', if_false, and_false, if_true, hid, htag, hkl, hlen', or_self, Nat.cast_zero, add_zero]
  rw [key.length_tlvs]
  have e5 : c.p + 3 + 2 = c.p + 5 := by ring
  have e6 : c.p + 3 + 1 + (key.bytes.length : ℤ) = c.p + ((5 + key.bytes.length : ℕ) : ℤ) - 1 := by
    push_cast
    ring
  rw [e5, e6]

/-- Off its keys, three bytes further in every round, the pointer finds no key;
the identifiers are taken from the bytes it comes to. -/
theorem readKeys_off {e : ℤ} {v : Byte} (hfar : ∀ s : ℕ, s < 16 → m (e + 1 + 3 * s) ≠ v ∧ m (e + 2 + 3 * s) ≠ 0x81)
    {j : ℕ} : ∀ {ks : List ℕ} {s : ℕ} {c c' : KeyCursor}, c.p = e - 1 + 3 * s → s + ks.length ≤ 16 →
    readKeys m 0x80 ks c = some c' → (j + 1 ∈ ks ∨ c.info.homeNwPublicKeyId j ≠ v) → c'.info.homeNwPublicKeyId j ≠ v
  | [], _, _, _, _, _, h, hj => by
    obtain rfl := Option.some.inj h
    exact hj.resolve_left (by simp)
  | k :: ks, s, c, c', hp, hs, h, hj => by
    obtain ⟨c₁, hround, hrest⟩ := Option.bind_eq_some_iff.mp h
    rw [List.length_cons] at hs
    by_cases h0 : k = 0
    · subst h0
      obtain rfl := Option.some.inj hround
      exact readKeys_off hfar hp (by omega) hrest (hj.imp_left fun hm => (List.mem_cons.mp hm).resolve_left (by omega))
    · obtain ⟨hid, htag⟩ := hfar s (by omega)
      have e2 : c.p + 2 = e + 1 + 3 * s := by
        rw [hp]
        ring
      have e3 : c.p + 3 = e + 2 + 3 * s := by
        rw [hp]
        ring
      rw [keyRound, if_neg h0] at hround
      split at hround
      · simp at hround
      dsimp only at hround
      rw [e2, e3, if_neg htag] at hround
      obtain rfl := Option.some.inj hround
      refine readKeys_off hfar (s := s + 1) ?_ (by omega) hrest ?_
      · push_cast
        ring
      · by_cases hkj : j = k - 1
        · right
          simp only [if_true, SuciCalcInfo.setKeyId, hkj, Function.update_self]
          exact hid
        · refine hj.imp (fun hm => (List.mem_cons.mp hm).resolve_left (by omega)) fun hne => ?_
          simp only [if_true, SuciCalcInfo.setKeyId, Function.update_of_ne hkj]
          exact hne

end Loops

/-! ### The decoder on a file -/

section Decode

variable {m : Mem} {schemes : List Scheme} {keys : List NwKey} (hn : schemes.length ≤ 16)
  (hlen : (keyBytes keys).length < 128) (h : Holds m 0 (suciCalcInfoFile schemes keys))
include hn hlen h

/-- Where the lists are. -/
theorem holds_lists : m 0 = 0xa0 ∧ (m 1).toNat = 2 * schemes.length ∧ Holds m 2 (schemeBytes schemes) ∧
    m (2 + (2 * schemes.length : ℕ)) = 0xa1 ∧ (m (3 + (2 * schemes.length : ℕ))).toNat = (keyBytes keys).length ∧
    Holds m (4 + (2 * schemes.length : ℕ)) (keyBytes keys) := by
  rw [suciCalcInfoFile, listTlv, listTlv, holds_append, holds_cons, holds_cons, holds_cons, holds_cons, List.length_cons,
    List.length_cons, length_schemeBytes] at h
  obtain ⟨⟨h0, h1, h2⟩, h3, h4, h5⟩ := h
  have e3 : (0 : ℤ) + ((2 * schemes.length + 1 + 1 : ℕ) : ℤ) = 2 + (2 * schemes.length : ℕ) := by
    push_cast
    ring
  have e4 : (2 : ℤ) + (2 * schemes.length : ℕ) + 1 = 3 + (2 * schemes.length : ℕ) := by ring
  have e5 : (3 : ℤ) + (2 * schemes.length : ℕ) + 1 = 4 + (2 * schemes.length : ℕ) := by ring
  rw [e3] at h3 h4 h5
  rw [e4] at h4 h5
  rw [e5] at h5
  refine ⟨h0, ?_, h2, h3, ?_, h5⟩
  · rw [show (1 : ℤ) = 0 + 1 from rfl, h1, BitVec.toNat_ofNat]
    exact Nat.mod_eq_of_lt (by omega)
  · rw [h4, BitVec.toNat_ofNat]
    exact Nat.mod_eq_of_lt (by omega)

/-- The indices the loop over the keys goes through. -/
theorem keyIndices_eq : ((List.range schemes.length).map fun i => (keyIndex m 1 i).toNat) =
    (((schemeBytes schemes).drop 1).take schemes.length).map BitVec.toNat := by
  obtain ⟨-, -, hschemes, -⟩ := holds_lists hn hlen h
  have hl := length_schemeBytes schemes
  refine List.ext_getElem ?_ fun i hi hi' => ?_
  · rw [List.length_map, List.length_map, List.length_range, List.length_take, List.length_drop, hl]
    omega
  · rw [List.length_map, List.length_range] at hi
    rw [List.getElem_map, List.getElem_map, List.getElem_range, List.getElem_take, List.getElem_drop, keyIndex]
    have hget := hschemes.getD_eq (i := 1 + i) (by omega)
    rw [List.getD_eq_getElem _ _ (by omega)] at hget
    rw [← hget]
    congr 2
    push_cast
    ring

/-- The decoder is the loop over the keys, from the first of them. -/
theorem decodeSuciCalcInfo_file (info : SuciCalcInfo) :
    ∃ info₁, SchemesRead m schemes.length { info with numProtectionSchemes := BitVec.ofNat 8 schemes.length } info₁ ∧
      decodeSuciCalcInfo m info = (readKeys m (m (4 + (2 * schemes.length : ℕ)))
        ((((schemeBytes schemes).drop 1).take schemes.length).map BitVec.toNat)
          ⟨4 + (2 * schemes.length : ℕ), 0, info₁⟩).map KeyCursor.info := by
  obtain ⟨h0, h1, -, h2, h3, -⟩ := holds_lists hn hlen h
  have hlist : listLength m 1 1 = (2 * schemes.length, 1) := by
    rw [listLength, h1, if_neg (by omega)]
  have hnum : (BitVec.ofNat 8 schemes.length).toNat = schemes.length := by
    rw [BitVec.toNat_ofNat]
    exact Nat.mod_eq_of_lt (by omega)
  have hhalf : 2 * schemes.length / 2 = schemes.length := Nat.mul_div_cancel_left _ two_pos
  have e2 : (1 : ℤ) + (1 : ℕ) + (2 * schemes.length : ℕ) = 2 + (2 * schemes.length : ℕ) := by
    push_cast
    ring
  have e3 : (2 : ℤ) + (2 * schemes.length : ℕ) + 1 = 3 + (2 * schemes.length : ℕ) := by ring
  have e4 : (3 : ℤ) + (2 * schemes.length : ℕ) + 1 + (0 : ℕ) = 4 + (2 * schemes.length : ℕ) := by
    push_cast
    ring
  have hkeys : (listLength m (3 + (2 * schemes.length : ℕ)) 0).2 = 0 := by
    rw [listLength, h3, if_neg (by omega)]
  refine ⟨_, schemesRead_loop m _ _, ?_⟩
  rw [decodeSuciCalcInfo, if_pos h0]
  simp only [hlist, hhalf, hnum, e2, h2, if_true, e3, hkeys, e4, keyIndices_eq hn hlen h]
  rw [if_neg (by omega)]

end Decode

/-! ### Schemes that fit -/

/-- A list in front of its first byte that is not `0`. -/
theorem exists_first_ne_zero : ∀ l : List Byte, (∀ x ∈ l, x = 0) ∨ ∃ l₁ x l₂, l = l₁ ++ x :: l₂ ∧ (∀ y ∈ l₁, y = 0) ∧ x ≠ 0
  | [] => .inl (by simp)
  | x :: l => by
    by_cases h0 : x = 0
    · rcases exists_first_ne_zero l with h | ⟨l₁, y, l₂, rfl, hl₁, hy⟩
      · exact .inl (List.forall_mem_cons.mpr ⟨h0, h⟩)
      · exact .inr ⟨x :: l₁, y, l₂, rfl, List.forall_mem_cons.mpr ⟨h0, hl₁⟩, hy⟩
    · exact .inr ⟨[], x, l, rfl, by simp, h0⟩

theorem filter_ne_zero_of_zeros {l : List Byte} (h : ∀ x ∈ l, x = 0) : l.filter (· ≠ 0) = [] := by
  rw [List.filter_eq_nil_iff]
  intro x hx
  simp [h x hx]

theorem map_toNat_zeros {l : List Byte} (h : ∀ x ∈ l, x = 0) : ∀ k ∈ l.map BitVec.toNat, k = 0 := by
  intro k hk
  obtain ⟨x, hx, rfl⟩ := List.mem_map.mp hk
  rw [h x hx]
  rfl

section Fit

variable {schemes : List Scheme}

/-- A byte that is read as an index is one, and at most the number of keys. -/
theorem toNat_le_of_mem_indices (hused : UsedInOrder schemes) (hn : schemes.length ≤ 16)
    (hfit : ∀ i < schemes.length, (schemeBytes schemes).getD i 0 = (schemeBytes schemes).getD (2 * i) 0) {x : Byte}
    (hx : x ∈ ((schemeBytes schemes).drop 1).take schemes.length) : x.toNat ≤ (usedIndices schemes).length := by
  obtain ⟨i, hi, rfl⟩ := List.mem_iff_getElem.mp hx
  have hi' := hi
  rw [List.length_take, List.length_drop, length_schemeBytes] at hi'
  obtain ⟨s, hs, hget⟩ := exists_index hfit (j := 1 + i) (by omega) (by omega)
  rw [List.getElem_take, List.getElem_drop]
  rw [List.getD_eq_getElem _ _ (by rw [length_schemeBytes]; omega)] at hget
  rw [hget]
  exact toNat_index_le hused hn hs

/-- The identifiers are read as they are where the bytes agree. -/
theorem ids_of_fit {m : Mem} (hbytes : Holds m 2 (schemeBytes schemes))
    (hfit : ∀ i < schemes.length, (schemeBytes schemes).getD i 0 = (schemeBytes schemes).getD (2 * i) 0)
    {info₀ info : SuciCalcInfo} (h : SchemesRead m schemes.length info₀ info) {i : ℕ} {s : Scheme}
    (hs : schemes[i]? = some s) : info.protectionSchemeIds i = s.id := by
  have hi : i < schemes.length := (List.getElem?_eq_some_iff.mp hs).1
  have hl := length_schemeBytes schemes
  rw [h.ids i hi, hbytes.getD_eq (by omega), hfit i hi]
  exact (getD_schemeBytes hs).1

/-- Schemes that fit are read, with their key. -/
theorem decode_of_fit {m : Mem} {keys : List NwKey} (hused : UsedInOrder schemes) (hn : schemes.length ≤ 16)
    (hkeys : keys.length = (usedIndices schemes).length) (hlen : (keyBytes keys).length < 128)
    (h : Holds m 0 (suciCalcInfoFile schemes keys)) (hfit : SchemesFit schemes) (info : SuciCalcInfo) :
    ∃ info', decodeSuciCalcInfo m info = some info' ∧ CalcInfoRight schemes keys info' := by
  obtain ⟨hids, hone, hcount⟩ := hfit
  obtain ⟨-, -, hbytes, -, -, hheld⟩ := holds_lists hn hlen h
  obtain ⟨info₁, hread, hdecode⟩ := decodeSuciCalcInfo_file hn hlen h info
  have hall : ∀ x ∈ ((schemeBytes schemes).drop 1).take schemes.length, x.toNat ≤ keys.length := fun x hx =>
    hkeys ▸ toNat_le_of_mem_indices hused hn hids hx
  rw [hdecode]
  rw [← hkeys] at hone hcount
  rcases keys with _ | ⟨key, _ | ⟨key', keys⟩⟩
  · -- no index is read, and the loop over the keys does nothing
    have hzeros : ∀ x ∈ ((schemeBytes schemes).drop 1).take schemes.length, x = 0 := by
      intro x hx
      have hle := hall x hx
      exact BitVec.eq_of_toNat_eq (Nat.le_zero.mp hle)
    rw [readKeys_of_zeros (map_toNat_zeros hzeros)]
    exact ⟨info₁, rfl, hread.num, fun i s hs => ids_of_fit hbytes hids hread hs, fun k key hk => by simp at hk⟩
  · -- the one index that is read is that of the key
    rcases exists_first_ne_zero (((schemeBytes schemes).drop 1).take schemes.length) with hzeros | ⟨l₁, x, l₂, hsplit, hl₁, hx⟩
    · rw [filter_ne_zero_of_zeros hzeros] at hcount
      simp at hcount
    have hx1 : x.toNat = 1 := by
      have hle := hall x (by rw [hsplit]; simp)
      have hne : x.toNat ≠ 0 := fun h0 => hx (BitVec.eq_of_toNat_eq h0)
      simp only [List.length_singleton] at hle
      omega
    have hl₂ : ∀ y ∈ l₂, y = 0 := by
      rw [hsplit, List.filter_append, filter_ne_zero_of_zeros hl₁, List.nil_append,
        List.filter_cons_of_pos (by simpa using hx)] at hcount
      have hnil : l₂.filter (· ≠ 0) = [] := List.length_eq_zero_iff.mp (by simpa using hcount)
      intro y hy
      by_contra hne
      exact absurd (List.mem_filter.mpr ⟨hy, decide_eq_true hne⟩) (by rw [hnil]; simp)
    have hkey : Holds m (4 + (2 * schemes.length : ℕ)) key.tlvs := by
      rw [keyBytes, List.flatMap_singleton] at hheld
      exact hheld
    rw [keyBytes, List.flatMap_singleton, key.length_tlvs] at hlen
    have htag : m (4 + (2 * schemes.length : ℕ)) = 0x80 := (holds_cons.mp hkey).1
    have hround := keyRound_key (c := ⟨4 + (2 * schemes.length : ℕ), 0, info₁⟩) hkey (by omega) rfl
      (k := 1) one_ne_zero (by decide)
    rw [hsplit, List.map_append, List.map_cons, hx1, htag, readKeys_zeros (map_toNat_zeros hl₁), readKeys, hround,
      Option.bind_some, readKeys_of_zeros (map_toNat_zeros hl₂)]
    refine ⟨_, rfl, hread.num, fun i s hs => ids_of_fit hbytes hids hread hs, fun k key' hk => ?_⟩
    obtain ⟨hk0, -⟩ := List.getElem?_eq_some_iff.mp hk
    obtain rfl : k = 0 := by simpa using hk0
    obtain rfl : key = key' := by simpa using hk
    have hvalue : Holds m (4 + (2 * schemes.length : ℕ) + 5) key.bytes := by
      rw [NwKey.tlvs, holds_append] at hkey
      exact hkey.2
    simp only [SuciCalcInfo.setKey, SuciCalcInfo.setKeyLen, SuciCalcInfo.setKeyId, Function.update_self, true_and]
    exact hvalue.copy _ 0
  · simp at hone

end Fit

/-! ### Keys that tell the others -/

/-- A first key, a second one on which the pointer finds no key again, and more. -/
def nearKey : NwKey := ⟨0x7e, []⟩

def farKey : NwKey := ⟨0x7f, List.replicate 45 0x55⟩

def farKeys : ℕ → List NwKey
  | 0 => []
  | 1 => [nearKey]
  | n + 2 => nearKey :: farKey :: List.replicate n nearKey

theorem length_farKeys : ∀ n : ℕ, (farKeys n).length = n
  | 0 => rfl
  | 1 => rfl
  | n + 2 => by simp [farKeys]

theorem length_keyBytes_replicate : ∀ n : ℕ, (keyBytes (List.replicate n nearKey)).length = 5 * n
  | 0 => rfl
  | n + 1 => by
    have ih := length_keyBytes_replicate n
    rw [List.replicate_succ, keyBytes, List.flatMap_cons, List.length_append, ← keyBytes, ih, NwKey.length_tlvs]
    simp only [nearKey, List.length_nil]
    omega

theorem length_keyBytes_farKeys : ∀ {n : ℕ}, n ≤ 16 → (keyBytes (farKeys n)).length < 128
  | 0, _ => by decide
  | 1, _ => by decide
  | n + 2, hn => by
    have hl : (keyBytes (farKeys (n + 2))).length = 5 + (50 + 5 * n) := by
      rw [farKeys, keyBytes, List.flatMap_cons, List.flatMap_cons, List.length_append, List.length_append, ← keyBytes,
        length_keyBytes_replicate]
      rfl
    omega

section Far

variable {m : Mem} {schemes : List Scheme} {p : ℤ}

/-- After a first key that is empty the pointer is off, and an index is not
read with the identifier `v` again. -/
theorem keyId_ne_of_off {v : Byte} (hkey : Holds m p nearKey.tlvs)
    (hfar : ∀ s : ℕ, s < 16 → m (p + 5 + 1 + 3 * s) ≠ v ∧ m (p + 5 + 2 + 3 * s) ≠ 0x81) {l₁ l₂ : List Byte} {x : Byte}
    (hl₁ : ∀ y ∈ l₁, y = 0) (hx : x ≠ 0) (hl₂ : l₂.length ≤ 16) {info : SuciCalcInfo} {c' : KeyCursor}
    (h : readKeys m 0x80 ((l₁ ++ x :: l₂).map BitVec.toNat) ⟨p, 0, info⟩ = some c') {j : ℕ}
    (hj : j + 1 ∈ l₂.map BitVec.toNat ∨ nearKey.id ≠ v ∧ info.homeNwPublicKeyId j ≠ v) :
    c'.info.homeNwPublicKeyId j ≠ v := by
  have hx0 : x.toNat ≠ 0 := fun h0 => hx (BitVec.eq_of_toNat_eq h0)
  rw [List.map_append, List.map_cons, readKeys_zeros (map_toNat_zeros hl₁), readKeys] at h
  by_cases hx16 : x.toNat ≤ 16
  · rw [keyRound_key (c := ⟨p, 0, info⟩) hkey (by decide) rfl hx0 hx16, Option.bind_some] at h
    refine readKeys_off (e := p + 5) hfar (s := 0) ?_ (by rw [List.length_map]; omega) h (hj.imp_right fun hne => ?_)
    · rw [NwKey.length_tlvs]
      simp [nearKey]
    · by_cases hjx : j = x.toNat - 1
      · simp only [SuciCalcInfo.setKey, SuciCalcInfo.setKeyLen, SuciCalcInfo.setKeyId, hjx, Function.update_self]
        exact hne.1
      · simp only [SuciCalcInfo.setKey, SuciCalcInfo.setKeyLen, SuciCalcInfo.setKeyId, Function.update_of_ne hjx]
        exact hne.2
  · rw [keyRound, if_neg hx0, if_pos ⟨rfl, by omega⟩] at h
    simp at h

/-- Behind the first key the second one keeps the pointer off. -/
theorem far_of_farKey (h : Holds m p farKey.tlvs) :
    ∀ s : ℕ, s < 16 → m (p + 1 + 3 * s) ≠ 0x7f ∧ m (p + 2 + 3 * s) ≠ 0x81 := by
  have hlist : ∀ s < 16, farKey.tlvs.getD (1 + 3 * s) 0 ≠ 0x7f ∧ farKey.tlvs.getD (2 + 3 * s) 0 ≠ 0x81 := by decide
  have hl : farKey.tlvs.length = 50 := rfl
  intro s hs
  have h1 := h.getD_eq (i := 1 + 3 * s) (by omega)
  have h2 := h.getD_eq (i := 2 + 3 * s) (by omega)
  push_cast at h1 h2
  rw [add_assoc, add_assoc, h1, h2]
  exact hlist s hs

/-- An identifier that was not there is read for an index. -/
theorem exists_index_of_readKeys {l : List Byte} {info : SuciCalcInfo} {c' : KeyCursor}
    (h : readKeys m 0x80 (l.map BitVec.toNat) ⟨p, 0, info⟩ = some c') {j : ℕ}
    (hne : c'.info.homeNwPublicKeyId j ≠ info.homeNwPublicKeyId j) :
    ∃ l₁ x l₂, l = l₁ ++ x :: l₂ ∧ (∀ y ∈ l₁, y = 0) ∧ x ≠ 0 := by
  rcases exists_first_ne_zero l with hzeros | hsplit
  · rw [readKeys_of_zeros (map_toNat_zeros hzeros)] at h
    obtain rfl := Option.some.inj h
    exact absurd rfl hne
  · exact hsplit

/-- Where the identifier of a single empty key is read, one index is read, and
not again. -/
theorem length_filter_of_nearKey {l : List Byte} (hl : l.length ≤ 16) (hle : ∀ x ∈ l, x.toNat ≤ 1)
    (hkey : Holds m p nearKey.tlvs) (hzero : ∀ q, p + 5 ≤ q → m q = 0) {info : SuciCalcInfo}
    (hinfo : info.homeNwPublicKeyId 0 = 0) {c' : KeyCursor}
    (h : readKeys m 0x80 (l.map BitVec.toNat) ⟨p, 0, info⟩ = some c') (hid : c'.info.homeNwPublicKeyId 0 = nearKey.id) :
    (l.filter (· ≠ 0)).length = 1 := by
  obtain ⟨l₁, x, l₂, rfl, hl₁, hx⟩ := exists_index_of_readKeys h (by rw [hid, hinfo]; decide)
  rw [List.length_append, List.length_cons] at hl
  have hfar : ∀ s : ℕ, s < 16 → m (p + 5 + 1 + 3 * s) ≠ nearKey.id ∧ m (p + 5 + 2 + 3 * s) ≠ 0x81 := by
    intro s _
    rw [hzero _ (by omega), hzero _ (by omega)]
    exact ⟨by decide, by decide⟩
  have hrest : ∀ y ∈ l₂, y = 0 := by
    intro y hy
    by_contra hne
    have hy1 : y.toNat = 0 + 1 := by
      have hle' := hle y (by simp [hy])
      have hne' : y.toNat ≠ 0 := fun h0 => hne (BitVec.eq_of_toNat_eq h0)
      omega
    exact keyId_ne_of_off hkey hfar hl₁ hx (by omega) h (.inl (List.mem_map.mpr ⟨y, hy, hy1⟩)) hid
  rw [List.filter_append, filter_ne_zero_of_zeros hl₁, List.nil_append, List.filter_cons_of_pos (by simpa using hx),
    filter_ne_zero_of_zeros hrest]
  rfl

/-- Behind an empty key the second one is not read with its identifier. -/
theorem keyId_ne_farKey {l : List Byte} (hl : l.length ≤ 16) (hkey : Holds m p nearKey.tlvs)
    (hsecond : Holds m (p + 5) farKey.tlvs) {info : SuciCalcInfo} (hinfo : info.homeNwPublicKeyId 1 = 0) {c' : KeyCursor}
    (h : readKeys m 0x80 (l.map BitVec.toNat) ⟨p, 0, info⟩ = some c') : c'.info.homeNwPublicKeyId 1 ≠ farKey.id := by
  intro hid
  obtain ⟨l₁, x, l₂, rfl, hl₁, hx⟩ := exists_index_of_readKeys h (by rw [hid, hinfo]; decide)
  rw [List.length_append, List.length_cons] at hl
  refine keyId_ne_of_off hkey (far_of_farKey hsecond) hl₁ hx (by omega) h (.inr ⟨by decide, ?_⟩) hid
  rw [hinfo]
  decide

/-- Where the structure is right for these keys, the schemes fit. -/
theorem fit_of_farKeys (hused : UsedInOrder schemes) (hn : schemes.length ≤ 16)
    (h : Holds m 0 (suciCalcInfoFile schemes (farKeys (usedIndices schemes).length)))
    (hzero : ∀ q : ℤ, (suciCalcInfoFile schemes (farKeys (usedIndices schemes).length)).length ≤ q → m q = 0)
    {info info' : SuciCalcInfo} (hinfo : ∀ j, info.homeNwPublicKeyId j = 0) (hd : decodeSuciCalcInfo m info = some info')
    (hright : CalcInfoRight schemes (farKeys (usedIndices schemes).length) info') : SchemesFit schemes := by
  have hM : (usedIndices schemes).length ≤ 16 := by
    refine (List.length_filter_le _ _).trans ?_
    rwa [List.length_map]
  have hlen := length_keyBytes_farKeys hM
  obtain ⟨-, -, hbytes, -, -, hheld⟩ := holds_lists hn hlen h
  obtain ⟨info₁, hread, hdecode⟩ := decodeSuciCalcInfo_file hn hlen h info
  have hl := length_schemeBytes schemes
  rw [hdecode] at hd
  obtain ⟨c', hloop, rfl⟩ := Option.map_eq_some_iff.mp hd
  have hids : ∀ i < schemes.length, (schemeBytes schemes).getD i 0 = (schemeBytes schemes).getD (2 * i) 0 := by
    intro i hi
    have hs := List.getElem?_eq_getElem hi
    rw [(getD_schemeBytes hs).1, ← hright.ids i _ hs, (readKeys_schemes hloop).2, hread.ids i hi, hbytes.getD_eq (by omega)]
  have hkeyId : ∀ j, info₁.homeNwPublicKeyId j = 0 := fun j => (hread.keyId j).elim id fun h => h.trans (hinfo j)
  have hl16 : (((schemeBytes schemes).drop 1).take schemes.length).length ≤ 16 := (List.length_take_le ..).trans hn
  have hle : ∀ x ∈ ((schemeBytes schemes).drop 1).take schemes.length, x.toNat ≤ (usedIndices schemes).length := fun x hx =>
    toNat_le_of_mem_indices hused hn hids hx
  have hfile : (suciCalcInfoFile schemes (farKeys (usedIndices schemes).length)).length =
      4 + 2 * schemes.length + (keyBytes (farKeys (usedIndices schemes).length)).length := by
    rw [suciCalcInfoFile, listTlv, listTlv, List.length_append, List.length_cons, List.length_cons, List.length_cons,
      List.length_cons, hl]
    omega
  refine ⟨hids, ?_⟩
  generalize hMdef : (usedIndices schemes).length = M at *
  rcases M with _ | _ | M
  · -- no key: every index is `0`
    refine ⟨Nat.zero_le _, ?_⟩
    rw [filter_ne_zero_of_zeros fun x hx => BitVec.eq_of_toNat_eq (Nat.le_zero.mp (hle x hx))]
    rfl
  · -- one key: its index is read, and not again
    have hkey : Holds m (4 + (2 * schemes.length : ℕ)) nearKey.tlvs := hheld
    have htag : m (4 + (2 * schemes.length : ℕ)) = 0x80 := (holds_cons.mp hkey).1
    have hend : (keyBytes (farKeys (0 + 1))).length = 5 := rfl
    rw [hend] at hfile
    rw [htag] at hloop
    exact ⟨le_rfl, length_filter_of_nearKey hl16 hle hkey (fun q hq => hzero q (by rw [hfile]; push_cast at hq ⊢; omega))
      (hkeyId 0) hloop (hright.keys 0 nearKey rfl).1⟩
  · -- more than one: the second is not read with its identifier
    have hkeys : Holds m (4 + (2 * schemes.length : ℕ)) (nearKey.tlvs ++ (farKey.tlvs ++ keyBytes (List.replicate M nearKey))) :=
      hheld
    rw [holds_append, holds_append] at hkeys
    obtain ⟨hkey, hsecond, -⟩ := hkeys
    have htag : m (4 + (2 * schemes.length : ℕ)) = 0x80 := (holds_cons.mp hkey).1
    rw [htag] at hloop
    exact absurd (hright.keys 1 farKey rfl).1 (keyId_ne_farKey hl16 hkey hsecond (hkeyId 1) hloop)

end Far

/-! ### The function -/

/-- A file that is delivered is decoded, from a buffer that holds it. -/
theorem val_readSuciCalcInfo {S : Sim} {E : Env} {σ : Type} {card : σ → Apdu → σ × Resp} {s : σ} {file : List Byte}
    (hd : Delivers S E suciCalcInfoFileid dir5gs card s file) {size : ℤ} (hmem : E.malloc size) (hsize : file.length ≤ size)
    (info : SuciCalcInfo) :
    ∃ buf, Holds buf 0 file ∧ (∀ p : ℤ, file.length ≤ p → buf p = E.heap p) ∧
      (run card (readSuciCalcInfo S E info size) s).val = (decodeSuciCalcInfo buf info).map fun info' => (0, info') := by
  rw [readSuciCalcInfo, if_neg (not_not.mpr hmem)]
  refine (hd.val_bind 0 E.heap _).elim fun buf ⟨hbuf, hbehind, t, hval⟩ => ⟨buf, hbuf, hbehind, hval.trans ?_⟩
  rw [if_neg (lt_irrefl _), if_neg (not_lt.mpr hsize)]
  cases decodeSuciCalcInfo buf info <;> rfl

/-- **For which schemes the structure is right, whatever the keys are.** -/
theorem calcInfo_iff {schemes : List Scheme} (hn : schemes.length ≤ 16) (hused : UsedInOrder schemes) :
    CalcInfoRead schemes ↔ SchemesFit schemes := by
  constructor
  · intro hread
    have hM : (usedIndices schemes).length ≤ 16 := by
      refine (List.length_filter_le _ _).trans ?_
      rwa [List.length_map]
    have hlen := length_keyBytes_farKeys hM
    have hfile : (suciCalcInfoFile schemes (farKeys (usedIndices schemes).length)).length ≤ 253 := by
      rw [suciCalcInfoFile, listTlv, listTlv, List.length_append, List.length_cons, List.length_cons, List.length_cons,
        List.length_cons, length_schemeBytes]
      omega
    have hd := delivers_binaryCard (S := fiveByteAid) (E := plainEnv) rfl hfile rfl suciCalcInfoFileid dir5gs
    obtain ⟨info', hval, hright⟩ := hread _ (length_farKeys _) hlen fiveByteAid plainEnv _ binaryCard _
      ⟨0, fun _ => 0, fun _ => 0, fun _ => 0, fun _ _ => 0⟩ _ rfl le_rfl hd
    obtain ⟨buf, hbuf, hbehind, hval'⟩ := val_readSuciCalcInfo hd rfl le_rfl
      ⟨0, fun _ => 0, fun _ => 0, fun _ => 0, fun _ _ => 0⟩
    rw [hval] at hval'
    obtain ⟨info, hdecode, hinfo⟩ := Option.map_eq_some_iff.mp hval'.symm
    obtain rfl : info = info' := congrArg Prod.snd hinfo
    exact fit_of_farKeys hused hn hbuf hbehind (fun _ => rfl) hdecode hright
  · intro hfit keys hkeys hlen S E σ card s info size hmem hsize hd
    obtain ⟨buf, hbuf, -, hval⟩ := val_readSuciCalcInfo hd hmem hsize info
    obtain ⟨info', hdecode, hright⟩ := decode_of_fit hused hn hkeys hlen hbuf hfit info
    exact ⟨info', by rw [hval, hdecode]; rfl, hright⟩

/-- Three schemes, one of them with a key. -/
theorem calcInfo_iff_one : CalcInfoRead [⟨0x02, 0x00⟩, ⟨0x00, 0x01⟩, ⟨0x00, 0x00⟩] :=
  (calcInfo_iff (by decide) (by unfold UsedInOrder; decide)).mpr (by decide)

/-- Of two schemes with a key each the second one is taken for the first index. -/
theorem calcInfo_not_read :
    let schemes : List Scheme := [⟨0x02, 0x01⟩, ⟨0x03, 0x02⟩]
    let keys : List NwKey := [⟨0x1b, [0xaa]⟩, ⟨0x1c, [0xbb]⟩]
    let info : SuciCalcInfo := ⟨0, fun _ => 0, fun _ => 0, fun _ => 0, fun _ _ => 0⟩
    UsedInOrder schemes ∧
      (run binaryCard (readSuciCalcInfo fiveByteAid plainEnv info 64) (suciCalcInfoFile schemes keys)).val.map
        (fun r => (r.1, r.2.numProtectionSchemes, r.2.protectionSchemeIds 0, r.2.protectionSchemeIds 1,
          r.2.homeNwPublicKeyId 0, r.2.homeNwPublicKeyId 1)) = some (0, 2, 0x02, 0x01, 0x1b, 0x00) ∧
      ¬ CalcInfoRead schemes := by
  intro schemes keys info
  have hvals : (run binaryCard (readSuciCalcInfo fiveByteAid plainEnv info 64) (suciCalcInfoFile schemes keys)).val.map
      (fun r => (r.1, r.2.numProtectionSchemes, r.2.protectionSchemeIds 0, r.2.protectionSchemeIds 1,
        r.2.homeNwPublicKeyId 0, r.2.homeNwPublicKeyId 1)) = some (0, 2, 0x02, 0x01, 0x1b, 0x00) := by decide +kernel
  refine ⟨by unfold UsedInOrder; decide, hvals, fun h => ?_⟩
  have hd := delivers_binaryCard (S := fiveByteAid) (E := plainEnv) rfl
    (show (suciCalcInfoFile schemes keys).length ≤ 253 by decide) rfl suciCalcInfoFileid dir5gs
  obtain ⟨info', hval, hright⟩ := h keys rfl (by decide) fiveByteAid plainEnv _ binaryCard _ info 64 rfl (by decide) hd
  rw [hval, Option.map_some, Option.some.injEq] at hvals
  have hid : info'.protectionSchemeIds 1 = 0x01 := congrArg (fun t => t.2.2.2.1) hvals
  have hid' : info'.protectionSchemeIds 1 = 0x03 := hright.ids 1 ⟨0x03, 0x02⟩ rfl
  rw [hid] at hid'
  exact absurd hid' (by decide)

end Usim
end La12xx
