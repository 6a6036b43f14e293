/-
# Off-chip authentication

`vtq_usim_offchip_authenticate` of `usim_lib.c`. The sequence number is retrieved
from the token, the code of the token is checked, and then the first four bytes of
the sequence number are compared with the entry of `usim_sqn_data.sqn` that its last
byte names. The list is there for the last sequence numbers used, but no function
of the library stores one: a token that is accepted is accepted again, and the
last byte may name a word behind the list. The module says which runs are fresh:
those whose tokens arrive in order; and which calls may be made in any order:
those that are not accepted. It also says which calls report what happened: a wrong
code is reported as a failure of the synchronisation, and the token for a new one is
made with bytes of RAND where AMF belongs (`classifies_iff`).
-/
import La12xx.Lib.Machine
import La12xx.Usim.Library
import La12xx.Usim.Milenage

namespace La12xx
namespace Usim

open ByteMem Milenage

/-! ### The function -/

/-- `vqa_usim_sqn_t` -/
structure SqnData where
  sqnMs : Field 6
  sqn : { l : List (BitVec 32) // l.length = 32 }

/-- `usim_sqn_data` at the start. -/
def SqnData.zero : SqnData := ⟨⟨List.replicate 6 0, rfl⟩, ⟨List.replicate 32 0, rfl⟩⟩

/-- A call: RAND, AUTN, and the words of the memory behind the list `sqn`. -/
structure AuthCall where
  rand : Field 16
  autn : Field 16
  behind : ℕ → BitVec 32

/-- What a call returns and stores (`auts` is stored only on failure), and the
index with which it read the list `sqn`, if it did. -/
structure AuthOut where
  ret : ℤ
  res : List Byte
  ck : List Byte
  ik : List Byte
  auts : Option (List Byte)
  index : Option ℕ

/-- `usim_sqn_data.sqn[ind]` -/
def SqnData.entry (d : SqnData) (behind : ℕ → BitVec 32) (ind : ℕ) : BitVec 32 :=
  if ind < 32 then d.sqn.1.getD ind 0 else behind (ind - 32)

/-- `vqa_usim_api_check_sqn` -/
def checkSqn (d : SqnData) (behind : ℕ → BitVec 32) (seq : BitVec 32) (ind : Byte) : ℤ :=
  if seq > d.entry behind ind.toNat then 0 else -1

section Function

variable (key opc : Field 16)

/-- The sequence number of a token, `(SQN ⊕ AK) ⊕ AK`. -/
def retrievedSqn (c : AuthCall) : List Byte := xorBytes 6 c.autn.1 (f2345 key.1 c.rand.1 opc.1).ak

/-- The code in the token is the one computed from RAND, SQN and AMF. -/
def MacMatches (c : AuthCall) : Prop :=
  f1 key.1 c.rand.1 (retrievedSqn key opc c) ((c.autn.1.drop 6).take 2) opc.1 = c.autn.1.drop 8

instance (c : AuthCall) : Decidable (MacMatches key opc c) := inferInstanceAs (Decidable (_ = _))

/-- `*(uint32_t *)(sqn)` -/
def seqOf (c : AuthCall) : BitVec 32 := u32 (ofList (retrievedSqn key opc c)) 0

/-- The last byte of the sequence number. -/
def indOf (c : AuthCall) : Byte := (retrievedSqn key opc c).getD 5 0

/-- The token AUTS: the concealed SQN of the USIM and its code, for which two
bytes of RAND take the place of AMF. -/
def autsFor (d : SqnData) (rand : Field 16) : List Byte :=
  xorBytes 6 d.sqnMs.1 (f5star key.1 rand.1 opc.1) ++
    f1star key.1 rand.1 d.sqnMs.1 ((rand.1.drop 6).take 2) opc.1

/-- `vtq_usim_offchip_authenticate` -/
def offchipAuthenticate (d : SqnData) (c : AuthCall) : SqnData × AuthOut :=
  let out := f2345 key.1 c.rand.1 opc.1
  let ret := if MacMatches key opc c then checkSqn d c.behind (seqOf key opc c) (indOf key opc c) else 1
  let index := if MacMatches key opc c then some (indOf key opc c).toNat else none
  if ret ≠ 0 then (d, ⟨2, out.res, out.ck, out.ik, some (autsFor key opc d c.rand), index⟩)
  else (d, ⟨0, out.res, out.ck, out.ik, none, index⟩)

variable {key opc}

/-- The sequence numbers the USIM keeps are never written. -/
theorem offchipAuthenticate_fst (d : SqnData) (c : AuthCall) : (offchipAuthenticate key opc d c).1 = d := by
  rw [offchipAuthenticate, apply_ite Prod.fst, ite_self]

theorem offchipAuthenticate_index (d : SqnData) (c : AuthCall) :
    (offchipAuthenticate key opc d c).2.index =
      if MacMatches key opc c then some (indOf key opc c).toNat else none := by
  rw [offchipAuthenticate, apply_ite Prod.snd, apply_ite AuthOut.index, ite_self]

/-- When a call is accepted. -/
theorem ret_eq_zero_iff (d : SqnData) (c : AuthCall) :
    (offchipAuthenticate key opc d c).2.ret = 0 ↔
      MacMatches key opc c ∧ d.entry c.behind (indOf key opc c).toNat < seqOf key opc c := by
  by_cases hmac : MacMatches key opc c
  · by_cases hseq : d.entry c.behind (indOf key opc c).toNat < seqOf key opc c
    · simp [offchipAuthenticate, checkSqn, hmac, hseq]
    · simp [offchipAuthenticate, checkSqn, hmac, hseq]
  · simp [offchipAuthenticate, hmac]

end Function

/-! ### Fresh runs -/

section Fresh

variable (key opc : Field 16)

/-- The calls of a run with their results, from the first call on. -/
def authRun (calls : List AuthCall) : List (AuthCall × AuthOut) :=
  Machine.outs (offchipAuthenticate key opc) SqnData.zero calls

/-- The number a list of bytes spells, highest byte first. -/
def bigEndian (l : List Byte) : ℕ := l.foldl (fun n b => 256 * n + b.toNat) 0

/-- No challenge and token are accepted twice, accepted sequence numbers with
the same last byte increase, and the list `sqn` is read below its end. -/
structure Fresh (run : List (AuthCall × AuthOut)) : Prop where
  noReplay : run.Pairwise fun p q => p.2.ret = 0 → q.2.ret = 0 → ¬(q.1.rand = p.1.rand ∧ q.1.autn = p.1.autn)
  increasing : run.Pairwise fun p q => p.2.ret = 0 → q.2.ret = 0 → indOf key opc p.1 = indOf key opc q.1 →
    bigEndian (retrievedSqn key opc p.1) < bigEndian (retrievedSqn key opc q.1)
  index_lt : ∀ p ∈ run, ∀ i, p.2.index = some i → i < 32

/-- The code of the token is right, and its first four bytes are not all zero. -/
def Valid (c : AuthCall) : Prop := MacMatches key opc c ∧ seqOf key opc c ≠ 0

/-- The calls of a run carry tokens that name entries of the list `sqn`, and the
valid ones arrive in increasing order. -/
structure Ordered (calls : List AuthCall) : Prop where
  ind_lt : ∀ c ∈ calls, MacMatches key opc c → (indOf key opc c).toNat < 32
  increasing : calls.Pairwise fun c c' => Valid key opc c → Valid key opc c' → indOf key opc c = indOf key opc c' →
    bigEndian (retrievedSqn key opc c) < bigEndian (retrievedSqn key opc c')

/-- The code of the token is wrong, or the check of the sequence number reads
the list within its bounds and refuses. -/
def Refused (c : AuthCall) : Prop :=
  MacMatches key opc c → (indOf key opc c).toNat < 32 ∧ seqOf key opc c = 0

variable {key opc}

theorem authRun_eq (calls : List AuthCall) :
    authRun key opc calls = calls.map fun c => (c, (offchipAuthenticate key opc SqnData.zero c).2) :=
  Machine.outs_eq_map (fun c => offchipAuthenticate_fst SqnData.zero c) calls

theorem entry_zero (behind : ℕ → BitVec 32) {ind : ℕ} (h : ind < 32) : SqnData.zero.entry behind ind = 0 := by
  rw [SqnData.entry, if_pos h]
  exact List.getD_replicate _ h

/-- Within the list, every valid token is accepted. -/
theorem accepted_iff_valid {c : AuthCall} (h : MacMatches key opc c → (indOf key opc c).toNat < 32) :
    (offchipAuthenticate key opc SqnData.zero c).2.ret = 0 ↔ Valid key opc c := by
  rw [ret_eq_zero_iff, Valid]
  apply and_congr_right
  intro hmac
  rw [entry_zero _ (h hmac)]
  exact BitVec.pos_iff_ne_zero _

/-- The list is read within its bounds exactly when the tokens with the right
code name entries of it. -/
theorem index_lt_iff (calls : List AuthCall) :
    (∀ p ∈ authRun key opc calls, ∀ i, p.2.index = some i → i < 32) ↔
      ∀ c ∈ calls, MacMatches key opc c → (indOf key opc c).toNat < 32 := by
  rw [authRun_eq, List.forall_mem_map]
  apply forall₂_congr
  intro c _
  rw [offchipAuthenticate_index]
  by_cases hmac : MacMatches key opc c
  · simp [hmac]
  · simp [hmac]

/-- What two calls carry, if they carry the same challenge and token. -/
theorem retrievedSqn_congr {c c' : AuthCall} (h : c'.rand = c.rand ∧ c'.autn = c.autn) :
    retrievedSqn key opc c' = retrievedSqn key opc c := by
  rw [retrievedSqn, retrievedSqn, h.1, h.2]

/-- **A run is fresh exactly when the tokens it is given are in order.** -/
theorem fresh_iff_ordered (calls : List AuthCall) :
    Fresh key opc (authRun key opc calls) ↔ Ordered key opc calls := by
  constructor
  · intro h
    have hind := (index_lt_iff calls).mp h.index_lt
    have hincr := h.increasing
    rw [authRun_eq, List.pairwise_map] at hincr
    refine ⟨hind, hincr.imp_of_mem fun hc hc' hlt hv hv' => ?_⟩
    exact hlt ((accepted_iff_valid (hind _ hc)).mpr hv) ((accepted_iff_valid (hind _ hc')).mpr hv')
  · intro h
    have hincr : (authRun key opc calls).Pairwise fun p q => p.2.ret = 0 → q.2.ret = 0 →
        indOf key opc p.1 = indOf key opc q.1 →
          bigEndian (retrievedSqn key opc p.1) < bigEndian (retrievedSqn key opc q.1) := by
      rw [authRun_eq, List.pairwise_map]
      refine h.increasing.imp_of_mem fun hc hc' hlt h0 h0' => ?_
      exact hlt ((accepted_iff_valid (h.ind_lt _ hc)).mp h0) ((accepted_iff_valid (h.ind_lt _ hc')).mp h0')
    refine ⟨hincr.imp fun {p q} hlt h0 h0' hsame => ?_, hincr, (index_lt_iff calls).mpr h.ind_lt⟩
    -- the same challenge and token carry the same number, which is not below itself
    have hsqn : retrievedSqn key opc q.1 = retrievedSqn key opc p.1 := retrievedSqn_congr hsame
    have := hlt h0 h0' (by rw [indOf, indOf, hsqn])
    rw [hsqn] at this
    exact lt_irrefl _ this

/-- Refused calls are in order, whatever their order. -/
theorem ordered_of_refused {calls : List AuthCall} (h : ∀ c ∈ calls, Refused key opc c) :
    Ordered key opc calls := by
  refine ⟨fun c hc hmac => (h c hc hmac).1, List.pairwise_of_forall_mem_list ?_⟩
  intro c hc _ _ hv
  exact absurd (h c hc hv.1).2 hv.2

/-- A call that is made twice returns the same twice. -/
theorem authRun_twice (c : AuthCall) :
    (authRun key opc [c, c]).map (fun p => p.2.ret) =
      List.replicate 2 (offchipAuthenticate key opc SqnData.zero c).2.ret := by
  rw [authRun_eq]
  rfl

/-- A call is refused if it may be made once, and made again. -/
theorem refused_of_ordered {c : AuthCall} (h : Ordered key opc [c, c]) : Refused key opc c := by
  intro hmac
  refine ⟨h.ind_lt c List.mem_cons_self hmac, ?_⟩
  by_contra hseq
  have hlt := List.rel_of_pairwise_cons h.increasing List.mem_cons_self ⟨hmac, hseq⟩ ⟨hmac, hseq⟩ rfl
  exact lt_irrefl _ hlt

/-! ### The tokens of the network -/

/-- The token of the network for a challenge, a sequence number and AMF. -/
def tokenFor (key opc rand : Field 16) (sqn : Field 6) (amf : Field 2) : Field 16 :=
  ⟨xorBytes 6 sqn.1 (f2345 key.1 rand.1 opc.1).ak ++ amf.1 ++ f1 key.1 rand.1 sqn.1 amf.1 opc.1, by
    simp [length_f1, amf.2]⟩

/-- Its sequence number is retrieved. -/
theorem retrievedSqn_tokenFor (rand : Field 16) (sqn : Field 6) (amf : Field 2) (behind : ℕ → BitVec 32) :
    retrievedSqn key opc ⟨rand, tokenFor key opc rand sqn amf, behind⟩ = sqn.1 := by
  show xorBytes 6 (xorBytes 6 sqn.1 _ ++ amf.1 ++ _) _ = sqn.1
  rw [List.append_assoc, xorBytes_append _ _ (length_xorBytes _ _ _)]
  exact xorBytes_cancel sqn.2 _

/-- Its code matches. -/
theorem macMatches_tokenFor (rand : Field 16) (sqn : Field 6) (amf : Field 2) (behind : ℕ → BitVec 32) :
    MacMatches key opc ⟨rand, tokenFor key opc rand sqn amf, behind⟩ := by
  have h6 : (xorBytes 6 sqn.1 (f2345 key.1 rand.1 opc.1).ak).length = 6 := length_xorBytes _ _ _
  rw [MacMatches, retrievedSqn_tokenFor]
  simp [tokenFor, List.drop_append, h6, amf.2]

/-- **Every key and OPc has a token that is accepted.** -/
theorem exists_not_refused (key opc : Field 16) : ∃ c, ¬Refused key opc c := by
  refine ⟨⟨⟨List.replicate 16 0, rfl⟩, tokenFor key opc ⟨List.replicate 16 0, rfl⟩ ⟨[1, 0, 0, 0, 0, 0], rfl⟩
    ⟨[0, 0], rfl⟩, fun _ => 0⟩, fun h => ?_⟩
  have hseq := (h (macMatches_tokenFor _ _ _ _)).2
  rw [seqOf, retrievedSqn_tokenFor] at hseq
  exact absurd hseq (by decide)

/-- **When off-chip authentication is fresh.** A run is fresh exactly when the
tokens it is given are in order; the runs over a set of calls are all fresh
exactly when every call of the set is refused; and for no key and OPc are all runs
fresh. -/
theorem fresh_runs_iff (key opc : Field 16) :
    (∀ calls, Fresh key opc (authRun key opc calls) ↔ Ordered key opc calls) ∧
    (∀ C : Set AuthCall,
      (∀ calls : List AuthCall, (∀ c ∈ calls, c ∈ C) → Fresh key opc (authRun key opc calls)) ↔
        ∀ c ∈ C, Refused key opc c) ∧
    ¬∀ calls, Fresh key opc (authRun key opc calls) := by
  refine ⟨fresh_iff_ordered, fun C => ⟨?_, ?_⟩, fun h => ?_⟩
  · intro h c hc
    exact refused_of_ordered ((fresh_iff_ordered _).mp (h [c, c] (by simp [hc])))
  · intro h calls hC
    exact (fresh_iff_ordered calls).mpr (ordered_of_refused fun c hc => h c (hC c hc))
  · obtain ⟨c, hc⟩ := exists_not_refused key opc
    exact hc (refused_of_ordered ((fresh_iff_ordered _).mp (h [c, c])))

end Fresh

/-! ### A token that is accepted twice -/

def sampleKey : Field 16 :=
  ⟨[0x46, 0x5b, 0x5c, 0xe8, 0xb1, 0x99, 0xb4, 0x9f, 0xaa, 0x5f, 0x0a, 0x2e, 0xe2, 0x38, 0xa6, 0xbc], rfl⟩

def sampleOpc : Field 16 :=
  ⟨[0xcd, 0x63, 0xcb, 0x71, 0x95, 0x4a, 0x9f, 0x4e, 0x48, 0xa5, 0x99, 0x4e, 0x37, 0xa0, 0x2b, 0xaf], rfl⟩

/-- SQN `ff9bb4d0b607`, AMF `b9b9`. -/
def sampleCall : AuthCall where
  rand := ⟨[0x23, 0x55, 0x3c, 0xbe, 0x96, 0x37, 0xa8, 0x9d, 0x21, 0x8a, 0xe6, 0x4d, 0xae, 0x47, 0xbf, 0x35], rfl⟩
  autn := ⟨[0x55, 0xf3, 0x28, 0xb4, 0x35, 0x77, 0xb9, 0xb9, 0x4a, 0x9f, 0xfa, 0xc3, 0x54, 0xdf, 0xaf, 0xb3], rfl⟩
  behind := fun _ => 0

/-- The token is accepted, and accepted again. -/
theorem token_accepted_twice :
    (authRun sampleKey sampleOpc [sampleCall, sampleCall]).map (fun p => p.2.ret) = [0, 0] ∧
      ¬Fresh sampleKey sampleOpc (authRun sampleKey sampleOpc [sampleCall, sampleCall]) := by
  have hret : (offchipAuthenticate sampleKey sampleOpc SqnData.zero sampleCall).2.ret = 0 := by decide +kernel
  have hmac := ((ret_eq_zero_iff _ sampleCall).mp hret).1
  refine ⟨by rw [authRun_twice, hret]; rfl, fun h => ?_⟩
  have hrefused := refused_of_ordered ((fresh_iff_ordered _).mp h)
  exact ((accepted_iff_valid fun hmac => (hrefused hmac).1).mp hret).2 (hrefused hmac).2

/-! ### What a call reports -/

section Classifies

variable (key opc : Field 16) (d : SqnData) (c : AuthCall)

/-- The check of the sequence number accepts. -/
def SqnAccepted : Prop := checkSqn d c.behind (seqOf key opc c) (indOf key opc c) = 0

/-- AUTS for the AMF of the token. -/
def autsOf : List Byte :=
  xorBytes 6 d.sqnMs.1 (f5star key.1 c.rand.1 opc.1) ++
    f1star key.1 c.rand.1 d.sqnMs.1 ((c.autn.1.drop 6).take 2) opc.1

/-- A call returns 1 for a wrong code, 2 for a number that is rejected, with AUTS, and
0 otherwise, with the keys. -/
structure Classifies (out : AuthOut) : Prop where
  macFailure : out.ret = 1 ↔ ¬MacMatches key opc c
  synchFailure : out.ret = 2 ↔ MacMatches key opc c ∧ ¬SqnAccepted key opc d c
  auts : MacMatches key opc c ∧ ¬SqnAccepted key opc d c → out.auts = some (autsOf key opc d c)
  success : out.ret = 0 ↔ MacMatches key opc c ∧ SqnAccepted key opc d c
  keys : MacMatches key opc c ∧ SqnAccepted key opc d c →
    out.res = (f2345 key.1 c.rand.1 opc.1).res ∧ out.ck = (f2345 key.1 c.rand.1 opc.1).ck ∧
      out.ik = (f2345 key.1 c.rand.1 opc.1).ik

variable {key opc d c}

theorem offchipAuthenticate_of_mac_ne (h : ¬MacMatches key opc c) : (offchipAuthenticate key opc d c).2.ret = 2 := by
  simp [offchipAuthenticate, h]

theorem offchipAuthenticate_of_accepted (h : MacMatches key opc c) (hsqn : SqnAccepted key opc d c) :
    (offchipAuthenticate key opc d c).2.ret = 0 := by
  rw [SqnAccepted] at hsqn
  simp [offchipAuthenticate, h, hsqn]

theorem offchipAuthenticate_of_rejected (h : MacMatches key opc c) (hsqn : ¬SqnAccepted key opc d c) :
    (offchipAuthenticate key opc d c).2.ret = 2 ∧
      (offchipAuthenticate key opc d c).2.auts = some (autsFor key opc d c.rand) := by
  rw [SqnAccepted] at hsqn
  simp [offchipAuthenticate, h, hsqn]

theorem offchipAuthenticate_keys :
    (offchipAuthenticate key opc d c).2.res = (f2345 key.1 c.rand.1 opc.1).res ∧
      (offchipAuthenticate key opc d c).2.ck = (f2345 key.1 c.rand.1 opc.1).ck ∧
        (offchipAuthenticate key opc d c).2.ik = (f2345 key.1 c.rand.1 opc.1).ik := by
  rw [offchipAuthenticate]
  split_ifs <;> exact ⟨rfl, rfl, rfl⟩

/-- The two tokens differ in the codes only. -/
theorem autsFor_eq_iff : autsFor key opc d c.rand = autsOf key opc d c ↔
    f1star key.1 c.rand.1 d.sqnMs.1 ((c.rand.1.drop 6).take 2) opc.1 =
      f1star key.1 c.rand.1 d.sqnMs.1 ((c.autn.1.drop 6).take 2) opc.1 := by
  rw [autsFor, autsOf, List.append_right_inj]

variable (key opc d c)

/-- **When a call reports what happened**: the code is right, and the number is accepted
or the code for a new synchronisation does not depend on AMF being taken from RAND. -/
theorem classifies_iff : Classifies key opc d c (offchipAuthenticate key opc d c).2 ↔
    MacMatches key opc c ∧ (SqnAccepted key opc d c ∨
      f1star key.1 c.rand.1 d.sqnMs.1 ((c.rand.1.drop 6).take 2) opc.1 =
        f1star key.1 c.rand.1 d.sqnMs.1 ((c.autn.1.drop 6).take 2) opc.1) := by
  by_cases hmac : MacMatches key opc c
  · by_cases hsqn : SqnAccepted key opc d c
    · have hret := offchipAuthenticate_of_accepted hmac hsqn
      refine iff_of_true ⟨?_, ?_, fun h => absurd hsqn h.2, ?_, fun _ => offchipAuthenticate_keys⟩ ⟨hmac, .inl hsqn⟩
      · rw [hret]
        exact iff_of_false (by decide) (not_not_intro hmac)
      · rw [hret]
        exact iff_of_false (by decide) fun h => h.2 hsqn
      · exact iff_of_true hret ⟨hmac, hsqn⟩
    · obtain ⟨hret, hauts⟩ := offchipAuthenticate_of_rejected hmac hsqn
      rw [← autsFor_eq_iff]
      constructor
      · intro h
        exact ⟨hmac, .inr (Option.some.inj (hauts.symm.trans (h.auts ⟨hmac, hsqn⟩)))⟩
      · rintro ⟨-, h | h⟩
        · exact absurd h hsqn
        · refine ⟨?_, iff_of_true hret ⟨hmac, hsqn⟩, fun _ => h ▸ hauts, ?_, fun h => absurd h.2 hsqn⟩
          · rw [hret]
            exact iff_of_false (by decide) (not_not_intro hmac)
          · rw [hret]
            exact iff_of_false (by decide) fun h => hsqn h.2
  · refine iff_of_false (fun h => ?_) fun h => hmac h.1
    have h1 := h.macFailure.mpr hmac
    rw [offchipAuthenticate_of_mac_ne hmac] at h1
    exact absurd h1 (by decide)

end Classifies

/-- The token of the sample with another AMF, for which its code is wrong. -/
def wrongCode : AuthCall where
  rand := sampleCall.rand
  autn := ⟨[0x55, 0xf3, 0x28, 0xb4, 0x35, 0x77, 0xb9, 0xb8, 0x4a, 0x9f, 0xfa, 0xc3, 0x54, 0xdf, 0xaf, 0xb3], rfl⟩
  behind := fun _ => 0

/-- A wrong code is reported as a failure of the synchronisation. -/
theorem wrong_code_reported :
    (offchipAuthenticate sampleKey sampleOpc SqnData.zero wrongCode).2.ret = 2 ∧
      ¬Classifies sampleKey sampleOpc SqnData.zero wrongCode
        (offchipAuthenticate sampleKey sampleOpc SqnData.zero wrongCode).2 := by
  have hmac : ¬MacMatches sampleKey sampleOpc wrongCode := by decide +kernel
  have hret := offchipAuthenticate_of_mac_ne (d := SqnData.zero) hmac
  refine ⟨hret, fun h => ?_⟩
  have h1 := h.macFailure.mpr hmac
  rw [hret] at h1
  exact absurd h1 (by decide)

end Usim
end La12xx
