/-
# On-chip authentication

`vtq_usim_authenticate` of `usim_lib.c` with `usim_onchip_auth` and
`usim_authenticate` of `usim_apdu.c`. The command carries RAND and AUTN with their
lengths, whatever bytes they have: `strlen` sees the zeros behind them. The response
is decoded from byte 0 of the buffer, where the driver stores the procedure byte of the
card; the length of CK is taken from its first byte; and AK goes to an array of six
bytes that is passed for a `vtq_usim_lv_t`. What is left of the decoding is
`onchip_conforms_iff`.

A transfer is whatever `sendReceiveAPDU` answers. The limit of 256 bytes that `Bounds.xfer`
has from the driver is not part of it: `usim_get_response` asks for three bytes more than
the 256 of its buffer, so the driver of this repository refuses the second transfer, and
what is said here of the decoding is said of a transport that delivers the answer.
-/
import La12xx.Usim.Library

namespace La12xx
namespace Usim

open ByteMem Dialogue

namespace OnChip

/-! ### The functions -/

/-- `strlen`, of a string that ends within the array. -/
def strlen (buf : List Byte) : ℕ := (buf.takeWhile (· ≠ 0)).length

/-- What the pointers to a `vtq_usim_lv_t` lead to: each the bytes of its value. -/
structure Lvs where
  auts : List Byte
  res : List Byte
  ck : List Byte
deriving DecidableEq

section Functions

variable (S : Sim)

/-- The command of `usim_authenticate`. -/
def authenticateCmd (data : List Byte) : Apdu := [cla S, 0x88, 0x00, 0x81, BitVec.ofNat 8 data.length] ++ data

/-- `usim_authenticate`; the array of the command has 39 bytes. -/
def authenticate (len : ℕ) (buf : List Byte) : Card Resp :=
  if strlen buf > 34 then pure ⟨-1, fun _ => 0⟩
  else if len ≤ 34 then sendReceiveAPDU (authenticateCmd S (buf.take len))
  else .fault

/-- `ak->length = ..; memcpy(ak->value, ..)`: `none` is a pointer to less than a
`vtq_usim_lv_t`, which has no `value`. -/
def storeAk (ak : Option (List Byte)) (value : List Byte) : Card (Option (List Byte)) :=
  ak.elim .fault fun _ => pure (some value)

/-- The decoding of the response: the return value and what the pointers lead to. -/
def decode (buffer : Mem) (lvs : Lvs) (ak : Option (List Byte)) : Card (ℤ × Lvs × Option (List Byte)) :=
  if buffer 0 = 0xdb then do
    let resLen := (buffer 1).toNat
    let res := bytes buffer 2 resLen
    let ckLen := (buffer (2 + resLen + 1)).toNat
    let ck := bytes buffer (2 + resLen + 1) ckLen
    let akLen := (buffer (2 + resLen + 1 + ckLen + 1)).toNat
    let ak ← storeAk ak (bytes buffer (2 + resLen + 1 + ckLen + 1) akLen)
    pure (0, { lvs with res := res, ck := ck }, ak)
  else if buffer 0 = 0xdc then
    pure (2, { lvs with auts := bytes buffer 2 (buffer 1).toNat }, ak)
  else pure (1, lvs, ak)

/-- The array `buffer` with RAND and AUTN, each behind its length. -/
def authBuffer (rand autn : List Byte) : List Byte :=
  BitVec.ofNat 8 rand.length :: rand ++ BitVec.ofNat 8 autn.length :: autn ++
    List.replicate (256 - (rand.length + autn.length + 2)) 0

/-- `usim_onchip_auth` -/
def onchipAuth (rand autn : List Byte) (lvs : Lvs) (ak : Option (List Byte)) :
    Card (ℤ × Lvs × Option (List Byte)) := do
  let len := rand.length + autn.length + 2
  if len > 256 then .fault
  else
    let r ← authenticate S len (authBuffer rand autn)
    if r.ret < 0 then pure (r.ret, lvs, ak)
    else
      let r ← sendReceiveAPDU (getResponseCmd S 256)
      if r.ret < 0 then pure (r.ret, lvs, ak)
      else decode r.data lvs ak

/-- What `vtq_usim_authenticate` returns and leaves. -/
structure AuthResult where
  ret : ℤ
  lvs : Lvs
  ik : List Byte
deriving DecidableEq

/-- `vtq_usim_authenticate`: `u8 ak[6]` is passed for AK, and `ik` is not passed. -/
def vtqAuthenticate (rand autn : List Byte) (lvs : Lvs) (ik : List Byte) : Card AuthResult := do
  let (ret, lvs, _) ← onchipAuth S rand autn lvs none
  if ret < 0 then pure ⟨-1, lvs, ik⟩ else pure ⟨ret, lvs, ik⟩

end Functions

/-! ### The answers of a card -/

/-- A value that a length byte can announce. -/
abbrev Value := { l : List Byte // l.length < 256 }

/-- The answers to AUTHENTICATE in the format of TS 31.102, and any others. -/
inductive Answer where
  | success (res ck ik : Value)
  | synch (auts : Value)
  | other (first : Byte) (rest : List Byte) (h : first ≠ 0xdb ∧ first ≠ 0xdc)

def lengthValue (v : Value) : List Byte := BitVec.ofNat 8 v.1.length :: v.1

def Answer.encode : Answer → List Byte
  | .success res ck ik => 0xdb :: lengthValue res ++ lengthValue ck ++ lengthValue ik
  | .synch auts => 0xdc :: lengthValue auts
  | .other first rest _ => first :: rest

/-- Where the answer is: at the start of the buffer, or behind the procedure byte `C0`
of the card for GET RESPONSE, as the driver delivers it. -/
inductive Layout where
  | start
  | procedureByte
deriving DecidableEq

/-- The response buffer with an answer; `rest` is what is behind it. -/
def deliver (layout : Layout) (a : Answer) (rest : Mem) : Mem :=
  match layout with
  | .start => put rest 0 a.encode
  | .procedureByte => put rest 0 (0xc0 :: a.encode)

/-- A card that gives these answers, and then none. -/
def replies : List Resp → Apdu → List Resp × Resp
  | [], _ => ([], ⟨-1, fun _ => 0⟩)
  | r :: rs, _ => (rs, r)

/-- The call carries RAND and AUTN, and what it returns and stores is what the card
answered. -/
structure Conforms (S : Sim) (rand autn : List Byte) (a : Answer) (o : Outcome (List Resp) Apdu Resp AuthResult) :
    Prop where
  command : (o.log.map Prod.fst).head? = some (authenticateCmd S ([16] ++ rand ++ [16] ++ autn))
  success : ∀ res ck ik, a = .success res ck ik →
    ∃ r, o.val = some r ∧ r.ret = 0 ∧ r.lvs.res = res.1 ∧ r.lvs.ck = ck.1 ∧ r.ik = ik.1
  synch : ∀ auts, a = .synch auts → ∃ r, o.val = some r ∧ r.ret = 2 ∧ r.lvs.auts = auts.1
  other : ∀ first rest h, a = .other first rest h → ∃ r, o.val = some r ∧ r.ret = 1

section Conforms

variable {S : Sim} {rand autn : List Byte} {a : Answer} {o : Outcome (List Resp) Apdu Resp AuthResult}

/-- Whatever the answer is, the function returns and says so. -/
theorem Conforms.exists_ret (h : Conforms S rand autn a o) : ∃ r, o.val = some r ∧ 0 ≤ r.ret := by
  cases a with
  | success res ck ik =>
    obtain ⟨r, hr, hret, -⟩ := h.success res ck ik rfl
    exact ⟨r, hr, hret.ge⟩
  | synch auts =>
    obtain ⟨r, hr, hret, -⟩ := h.synch auts rfl
    exact ⟨r, hr, by omega⟩
  | other first rest hne =>
    obtain ⟨r, hr, hret⟩ := h.other first rest hne rfl
    exact ⟨r, hr, by omega⟩

/-- A fault and a negative result are never right. -/
theorem not_conforms (hval : ∀ r, o.val = some r → r.ret < 0) : ¬Conforms S rand autn a o := by
  intro h
  obtain ⟨r, hr, hret⟩ := h.exists_ret
  exact absurd (hval r hr) (not_lt.mpr hret)

/-- A failure of the authentication is right for the answers that are neither a success nor
a failure of the synchronisation. -/
theorem conforms_of_ret_one
    (hlog : (o.log.map Prod.fst).head? = some (authenticateCmd S ([16] ++ rand ++ [16] ++ autn)))
    {r : AuthResult} (hval : o.val = some r) (hret : r.ret = 1) :
    Conforms S rand autn a o ↔ a.encode.head? ≠ some 0xdb ∧ a.encode.head? ≠ some 0xdc := by
  cases a with
  | success res ck ik =>
    refine iff_of_false (fun h => ?_) fun h => h.1 rfl
    obtain ⟨r', hr, h0, -⟩ := h.success res ck ik rfl
    obtain rfl := Option.some.inj (hval.symm.trans hr)
    omega
  | synch auts =>
    refine iff_of_false (fun h => ?_) fun h => h.2 rfl
    obtain ⟨r', hr, h2, -⟩ := h.synch auts rfl
    obtain rfl := Option.some.inj (hval.symm.trans hr)
    omega
  | other first rest hne =>
    exact iff_of_true ⟨hlog, nofun, nofun, fun _ _ _ _ => ⟨r, hval, hret⟩⟩
      ⟨fun h => hne.1 (Option.some.inj h), fun h => hne.2 (Option.some.inj h)⟩

end Conforms

/-! ### The command -/

section Command

variable (S : Sim) (rand autn : Field 16)

theorem strlen_le {l : List Byte} (n : ℕ) : strlen (l ++ List.replicate (n + 1) 0) ≤ l.length := by
  induction l with
  | nil => exact le_of_eq rfl
  | cons b l ih =>
    rw [strlen, List.cons_append, List.takeWhile_cons]
    split
    · rw [List.length_cons, List.length_cons]
      exact Nat.succ_le_succ ih
    · exact Nat.zero_le _

/-- The command is sent whatever bytes there are. -/
theorem authenticate_eq : authenticate S 34 (authBuffer rand.1 autn.1) =
    sendReceiveAPDU (authenticateCmd S ([16] ++ rand.1 ++ [16] ++ autn.1)) := by
  have hlen : ([16] ++ rand.1 ++ [16] ++ autn.1 : List Byte).length = 34 := by
    simp only [List.length_append, List.length_singleton, rand.2, autn.2]
  have hbuf : authBuffer rand.1 autn.1 = [16] ++ rand.1 ++ [16] ++ autn.1 ++ List.replicate (221 + 1) 0 := by
    simp only [authBuffer, rand.2, autn.2, List.append_assoc, List.cons_append, List.nil_append]
    rfl
  have hstr := strlen_le (l := [16] ++ rand.1 ++ [16] ++ autn.1) 221
  rw [authenticate, hbuf, if_neg (by omega), if_pos le_rfl, List.take_left' hlen]

end Command

/-! ### The decoding -/

section Decoding

variable (S : Sim) (rand autn : Field 16) (lvs : Lvs) (ik : List Byte)

/-- The function with the two responses. -/
def outcome (r1 r2 : Resp) : Outcome (List Resp) Apdu Resp AuthResult :=
  (vtqAuthenticate S rand.1 autn.1 lvs ik).run replies [r1, r2]

theorem log_outcome (r1 r2 : Resp) : ((outcome S rand autn lvs ik r1 r2).log.map Prod.fst).head? =
    some (authenticateCmd S ([16] ++ rand.1 ++ [16] ++ autn.1)) := by
  have hlen : rand.1.length + autn.1.length + 2 = 34 := by rw [rand.2, autn.2]
  rw [outcome, vtqAuthenticate, onchipAuth, hlen, if_neg (by omega), authenticate_eq]
  rfl

theorem val_outcome (r1 r2 : Resp) : (outcome S rand autn lvs ik r1 r2).val =
    if r1.ret < 0 ∨ r2.ret < 0 then some ⟨-1, lvs, ik⟩
    else if r2.data 0 = 0xdb then none
    else if r2.data 0 = 0xdc then some ⟨2, { lvs with auts := bytes r2.data 2 (r2.data 1).toNat }, ik⟩
    else some ⟨1, lvs, ik⟩ := by
  have hlen : rand.1.length + autn.1.length + 2 = 34 := by rw [rand.2, autn.2]
  rw [outcome, vtqAuthenticate, onchipAuth, hlen, if_neg (by omega), authenticate_eq]
  by_cases h1 : r1.ret < 0
  · rw [if_pos (.inl h1)]
    simp [run_bind, sendReceiveAPDU, replies, h1]
  by_cases h2 : r2.ret < 0
  · rw [if_pos (.inr h2)]
    simp [run_bind, sendReceiveAPDU, replies, h1, h2]
  rw [if_neg (by omega)]
  by_cases hdb : r2.data 0 = 0xdb
  · have hdecode : decode r2.data lvs none = .fault := if_pos hdb
    rw [if_pos hdb]
    simp [run_bind, sendReceiveAPDU, replies, h1, h2, hdecode]
  rw [if_neg hdb]
  by_cases hdc : r2.data 0 = 0xdc
  · have hdecode : decode r2.data lvs none =
        pure (2, { lvs with auts := bytes r2.data 2 (r2.data 1).toNat }, none) := (if_neg hdb).trans (if_pos hdc)
    rw [if_pos hdc]
    simp [run_bind, sendReceiveAPDU, replies, h1, h2, hdecode]
  · have hdecode : decode r2.data lvs none = pure (1, lvs, none) := (if_neg hdb).trans (if_neg hdc)
    rw [if_neg hdc]
    simp [run_bind, sendReceiveAPDU, replies, h1, h2, hdecode]

/-- The first byte of the buffer. -/
theorem deliver_zero (layout : Layout) (a : Answer) (rest : Mem) :
    deliver layout a rest 0 = if layout = .start then a.encode.getD 0 0 else 0xc0 := by
  cases layout with
  | start =>
    have hpos : 0 < a.encode.length := by cases a <;> exact Nat.succ_pos _
    exact (holds_put rest 0 a.encode).getD_eq hpos
  | procedureByte => exact (holds_put rest 0 (0xc0 :: a.encode)).getD_eq (Nat.succ_pos _)

/-- AUTS is where the function expects it if the answer is at the start. -/
theorem auts_eq (auts : Value) (rest : Mem) :
    bytes (deliver .start (.synch auts) rest) 2 (deliver .start (.synch auts) rest 1).toNat = auts.1 := by
  have hholds := holds_put rest 0 (Answer.synch auts).encode
  obtain ⟨-, hlen, hvalue⟩ := (holds_cons.trans (and_congr_right' holds_cons)).mp hholds
  have hnat : (deliver .start (.synch auts) rest 1).toNat = auts.1.length := by
    rw [deliver]
    rw [zero_add] at hlen
    rw [hlen, BitVec.toNat_ofNat, Nat.mod_eq_of_lt auts.2]
  exact hvalue.bytes_eq hnat

/-- **What is left of the decoding.** The command always carries RAND and AUTN; the
result is right exactly if both transfers succeed and the answer is neither a success
nor, behind the procedure byte, a failure of the synchronisation. -/
theorem onchip_conforms_iff (r1 : Resp) (ret : ℤ) (layout : Layout) (a : Answer) (rest : Mem) :
    Conforms S rand.1 autn.1 a (outcome S rand autn lvs ik r1 ⟨ret, deliver layout a rest⟩) ↔
      0 ≤ r1.ret ∧ 0 ≤ ret ∧ a.encode.head? ≠ some 0xdb ∧ (layout = .procedureByte → a.encode.head? ≠ some 0xdc) := by
  have hval := val_outcome S rand autn lvs ik r1 ⟨ret, deliver layout a rest⟩
  generalize ho : outcome S rand autn lvs ik r1 ⟨ret, deliver layout a rest⟩ = o at hval
  have hlog : (o.log.map Prod.fst).head? = _ := ho ▸ log_outcome S rand autn lvs ik r1 ⟨ret, deliver layout a rest⟩
  by_cases hret : r1.ret < 0 ∨ ret < 0
  · rw [if_pos hret] at hval
    refine iff_of_false (not_conforms fun r hr => ?_) (by omega)
    obtain rfl := Option.some.inj (hval.symm.trans hr)
    exact neg_one_lt_zero
  rw [if_neg hret] at hval
  rw [← and_assoc, and_iff_right (show 0 ≤ r1.ret ∧ 0 ≤ ret by omega)]
  cases layout with
  | start =>
    cases a with
    | success res ck ik' =>
      have hdb : deliver .start (.success res ck ik') rest 0 = 0xdb := deliver_zero .start _ rest
      rw [if_pos hdb] at hval
      exact iff_of_false (not_conforms fun r hr => absurd (hval.symm.trans hr) (Option.some_ne_none r).symm)
        fun h => h.1 rfl
    | synch auts =>
      have hdc : deliver .start (.synch auts) rest 0 = 0xdc := deliver_zero .start _ rest
      have hne : deliver .start (.synch auts) rest 0 ≠ 0xdb := by
        rw [hdc]
        decide
      rw [if_neg hne, if_pos hdc] at hval
      refine iff_of_true ⟨hlog, nofun, ?_, nofun⟩ ⟨by simp [Answer.encode], nofun⟩
      rintro _ ⟨⟩
      exact ⟨_, hval, rfl, auts_eq auts rest⟩
    | other first tail hne =>
      have hfirst : deliver .start (.other first tail hne) rest 0 = first := deliver_zero .start _ rest
      rw [if_neg fun h => hne.1 (hfirst.symm.trans h), if_neg fun h => hne.2 (hfirst.symm.trans h)] at hval
      rw [conforms_of_ret_one hlog hval rfl]
      exact and_congr_right fun _ => iff_of_true (fun h => hne.2 (Option.some.inj h)) nofun
  | procedureByte =>
    have hc0 : deliver .procedureByte a rest 0 = 0xc0 := deliver_zero .procedureByte a rest
    have hdb : deliver .procedureByte a rest 0 ≠ 0xdb := by
      rw [hc0]
      decide
    have hdc : deliver .procedureByte a rest 0 ≠ 0xdc := by
      rw [hc0]
      decide
    rw [if_neg hdb, if_neg hdc] at hval
    rw [conforms_of_ret_one hlog hval rfl]
    exact and_congr_right fun _ => ⟨fun h _ => h, fun h => h rfl⟩

end Decoding

def sampleSim : Sim := ⟨.usim, 0, [], by decide⟩

/-- RES of four bytes, CK and IK of sixteen. -/
def sampleSuccess : Answer :=
  .success ⟨[1, 2, 3, 4], by decide⟩ ⟨List.replicate 16 5, by decide⟩ ⟨List.replicate 16 6, by decide⟩

/-- All bytes are zero. -/
def zero16 : Field 16 := ⟨List.replicate 16 0, rfl⟩

/-- A success of the card is returned as a failure of the authentication. -/
theorem success_not_decoded :
    (outcome sampleSim zero16 zero16 ⟨[], [], []⟩ [] ⟨0, fun _ => 0⟩
        ⟨0, deliver .procedureByte sampleSuccess fun _ => 0⟩).val = some ⟨1, ⟨[], [], []⟩, []⟩ ∧
      ¬Conforms sampleSim zero16.1 zero16.1 sampleSuccess (outcome sampleSim zero16 zero16 ⟨[], [], []⟩ []
        ⟨0, fun _ => 0⟩ ⟨0, deliver .procedureByte sampleSuccess fun _ => 0⟩) := by
  have hval : (outcome sampleSim zero16 zero16 ⟨[], [], []⟩ [] ⟨0, fun _ => 0⟩
      ⟨0, deliver .procedureByte sampleSuccess fun _ => 0⟩).val = some ⟨1, ⟨[], [], []⟩, []⟩ := by
    rw [val_outcome]
    rfl
  refine ⟨hval, fun h => ?_⟩
  exact ((conforms_of_ret_one (log_outcome ..) hval rfl).mp h).1 rfl

end OnChip
end Usim
end La12xx
