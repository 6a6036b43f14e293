/-
# The bytes the decoders read

How the reading functions of `usim_lib.c` take their buffer apart, once more on an
array: the bytes that the card has delivered. `none` is a byte behind them. For each
decoder there is a condition on the array (`KeysInside`, `ElementsInside` and so on)
under which it reads delivered bytes only; where the decoder is known from other
modules it then gives the same.

What a caller's structure has room for does not matter here.
-/
import La12xx.Lib.Arr
import La12xx.Usim.Acl
import La12xx.Usim.NasConfig
import La12xx.Usim.PlmnLists
import La12xx.Usim.SuciCalcInfo

namespace La12xx
namespace Usim

open ByteMem

namespace Bounds

/-! ### Fixed fields -/

/-- `vtq_usim_read_rid` -/
def decodeRid (a : Arr) : Option Word := do
  let low ← a.fetch 0
  let high ← a.fetch 1
  some (high ++ low)

/-- `vtq_usim_imsi_t` -/
structure Imsi where
  length : ℕ
  value : List Byte
deriving DecidableEq, Repr

/-- `vtq_usim_read_imsi` -/
def decodeImsi (a : Arr) : Option Imsi := do
  let length ← a.fetch 0
  let value ← a.slice 1 length.toNat
  some ⟨length.toNat, value⟩

/-- `vtq_usim_op_plmn_list_t` -/
structure OpPlmn where
  plmn : List Byte
  startTac : List Byte
  endTac : List Byte
  pnnId : Byte
deriving DecidableEq, Repr

/-- `vtq_usim_read_op_plmn` -/
def decodeOpPlmn (a : Arr) : Option OpPlmn := do
  let plmn ← a.slice 0 3
  let startTac ← a.slice 3 3
  let endTac ← a.slice 6 3
  let pnnId ← a.fetch 9
  some ⟨plmn, startTac, endTac, pnnId⟩

/-- `vtq_usim_5gs_loc_info_t` -/
structure LocInfo where
  guti : List Byte
  plmn : List Byte
  tac : List Byte
  statusUpdate : Byte
deriving DecidableEq, Repr

/-- `vtq_usim_read_5gs_loc_info` -/
def decode5gsLocInfo (a : Arr) : Option LocInfo := do
  let guti ← a.slice 0 13
  let plmn ← a.slice 13 3
  let tac ← a.slice 16 3
  let statusUpdate ← a.fetch 19
  some ⟨guti, plmn, tac, statusUpdate⟩

/-- `vtq_usim_admin_data_t` -/
structure AdminData where
  ueOpMode : Byte
  addnlInfo : List Byte
  mncLen : Byte
deriving DecidableEq, Repr

/-- `vtq_usim_read_admin_data` -/
def decodeAdminData (a : Arr) : Option AdminData := do
  let ueOpMode ← a.fetch 0
  let addnlInfo ← a.slice 1 2
  let mncLen ← a.fetch 3
  some ⟨ueOpMode, addnlInfo, mncLen⟩

/-- The loop of a function that counts the entries of a list, from `pos` on. -/
def plmnEntries (a : Arr) (withAct : Bool) : ℕ → ℤ → Option (List PlmnEntry)
  | 0, _ => some []
  | left + 1, pos => do
    let plmn ← a.slice pos 3
    if plmn = Plmn.free.bytes then plmnEntries a withAct left (pos + entrySize withAct)
    else
      let _ ← a.slice pos (entrySize withAct)
      let rest ← plmnEntries a withAct left (pos + entrySize withAct)
      some (entryAt a.mem withAct pos :: rest)

/-- What a counting function takes from a file of length `len`. -/
def decodePlmnList (withAct : Bool) (len : ℤ) (a : Arr) : Option (List PlmnEntry) :=
  plmnEntries a withAct ((min len plmnMaxLength).toNat / entrySize withAct) 0

section Fields

variable {a : Arr}

theorem decodeRid_ne_none_iff : decodeRid a ≠ none ↔ 2 ≤ a.size := by
  rw [Option.ne_none_iff_exists', decodeRid]
  simp only [Arr.fetch_bind_eq_some, exists_and_left, Option.some.injEq, exists_eq', and_true]
  unfold Arr.Inside
  omega

theorem decodeImsi_ne_none_iff : decodeImsi a ≠ none ↔ 1 ≤ a.size ∧ 1 + (a.mem 0).toNat ≤ a.size := by
  rw [Option.ne_none_iff_exists', decodeImsi]
  simp only [Arr.fetch_bind_eq_some, Arr.slice_bind_eq_some, exists_and_left, Option.some.injEq, exists_eq', and_true]
  unfold Arr.Inside
  omega

theorem decodeOpPlmn_ne_none_iff : decodeOpPlmn a ≠ none ↔ 10 ≤ a.size := by
  rw [Option.ne_none_iff_exists', decodeOpPlmn]
  simp only [Arr.fetch_bind_eq_some, Arr.slice_bind_eq_some, exists_and_left, Option.some.injEq, exists_eq', and_true]
  unfold Arr.Inside
  omega

theorem decode5gsLocInfo_ne_none_iff : decode5gsLocInfo a ≠ none ↔ 20 ≤ a.size := by
  rw [Option.ne_none_iff_exists', decode5gsLocInfo]
  simp only [Arr.fetch_bind_eq_some, Arr.slice_bind_eq_some, exists_and_left, Option.some.injEq, exists_eq', and_true]
  unfold Arr.Inside
  omega

theorem decodeAdminData_ne_none_iff : decodeAdminData a ≠ none ↔ 4 ≤ a.size := by
  rw [Option.ne_none_iff_exists', decodeAdminData]
  simp only [Arr.fetch_bind_eq_some, Arr.slice_bind_eq_some, exists_and_left, Option.some.injEq, exists_eq', and_true]
  unfold Arr.Inside
  omega

/-- A number of bytes from the start. -/
theorem slice_ne_none_iff (n : ℕ) : a.slice 0 n ≠ none ↔ n ≤ a.size := by
  rw [Arr.slice]
  split
  · next h => exact iff_of_true (by simp) (by omega)
  · next h => exact iff_of_false (fun h => h rfl) (by omega)

/-- Whole entries are read inside. -/
theorem plmnEntries_ne_none {withAct : Bool} (left : ℕ) : ∀ {pos : ℤ}, 0 ≤ pos →
    pos + left * entrySize withAct ≤ a.size → plmnEntries a withAct left pos ≠ none := by
  have hsize : (3 : ℤ) ≤ entrySize withAct := by cases withAct <;> decide
  induction left with
  | zero =>
    intro pos _ _
    rw [plmnEntries]
    simp
  | succ left ih =>
    intro pos h0 hlast
    push_cast at hlast
    have hend : pos + entrySize withAct ≤ a.size := by nlinarith
    obtain ⟨rest, hrest⟩ := Option.ne_none_iff_exists'.mp (@ih (pos + entrySize withAct) (by omega) (by linarith))
    rw [plmnEntries, Option.ne_none_iff_exists', hrest]
    simp only [Arr.slice_bind_eq_some, exists_and_left]
    refine ⟨.inr ⟨h0, by push_cast; omega⟩, ?_⟩
    split
    · exact ⟨rest, rfl⟩
    · refine ⟨_, Arr.slice_bind_eq_some.mpr ⟨.inr ⟨h0, hend⟩, rfl⟩⟩

/-- The lists are read up to the length of the file at most. -/
theorem decodePlmnList_ne_none (withAct : Bool) : decodePlmnList withAct a.size a ≠ none := by
  have hle : (min (a.size : ℤ) plmnMaxLength).toNat / entrySize withAct * entrySize withAct ≤ a.size :=
    (Nat.div_mul_le_self _ _).trans (by omega)
  refine plmnEntries_ne_none _ le_rfl ?_
  rw [zero_add]
  exact_mod_cast hle

end Fields

/-! ### TLVs -/

/-- A TLV is read if it has the tag that is expected. -/
def getTlv (a : Arr) (expected : Byte) (pos : ℤ) (t : Tlv) : Option (Tlv × ℤ) := do
  let tag ← a.fetch pos
  if tag = expected then
    let length ← a.fetch (pos + 1)
    let value ← a.slice (pos + 2) length.toNat
    some (⟨tag, value⟩, pos + 2 + length.toNat)
  else some ({ t with tag := tag }, pos)

/-- `eutra_disabling_capable` -/
def getTlvAtLength (a : Arr) (expected : Byte) (pos : ℤ) (t : Tlv) : Option (Tlv × ℤ) := do
  let tag ← a.fetch pos
  if tag = expected then
    let length ← a.fetch (pos + 1)
    let value ← a.slice (pos + 1) length.toNat
    some (⟨tag, value⟩, pos + 1 + length.toNat)
  else some ({ t with tag := tag }, pos)

/-- Where the pointer is after an element with the tag. -/
def nextElement (m : Mem) (tag : Byte) (pos : ℤ) : ℤ :=
  if m pos = tag then pos + (if tag = nasDaTag then 1 else 2) + (m (pos + 1)).toNat else pos

/-- The element at the pointer ends inside. -/
def ElementInside (a : Arr) (tag : Byte) (pos : ℤ) : Prop :=
  a.Inside pos ∧ (a.mem pos = tag → a.Inside (pos + 1) ∧ nextElement a.mem tag pos ≤ a.size)

/-- The elements with the tags end inside, from `pos` on. -/
def ElementsInside (a : Arr) : List Byte → ℤ → Prop
  | [], _ => True
  | tag :: tags, pos => ElementInside a tag pos ∧ ElementsInside a tags (nextElement a.mem tag pos)

section Elements

variable {a : Arr} {tag : Byte} {pos : ℤ} {t : Tlv} {α : Type} {f : Tlv × ℤ → Option α} {x : α}

theorem getTlv_bind_eq_some (hne : tag ≠ nasDaTag) :
    (getTlv a tag pos t >>= f) = some x ↔ ElementInside a tag pos ∧ f (Usim.getTlv a.mem tag pos t) = some x := by
  rw [getTlv, bind_assoc, Arr.fetch_bind_eq_some, ElementInside, and_assoc, nextElement, Usim.getTlv]
  refine and_congr_right fun hpos => ?_
  by_cases htag : a.mem pos = tag
  · simp only [htag, hne, if_true, if_false, bind_assoc, Arr.fetch_bind_eq_some, Arr.slice_bind_eq_some, true_imp_iff]
    rw [and_assoc]
    refine and_congr_right fun hlen => and_congr_left' ?_
    have h0 := hpos.1
    have h1 := hlen.2
    omega
  · simp only [htag, if_false, false_imp_iff, true_and]
    rfl

theorem getTlvAtLength_bind_eq_some : (getTlvAtLength a nasDaTag pos t >>= f) = some x ↔
    ElementInside a nasDaTag pos ∧ f (Usim.getTlvAtLength a.mem nasDaTag pos t) = some x := by
  rw [getTlvAtLength, bind_assoc, Arr.fetch_bind_eq_some, ElementInside, and_assoc, nextElement, Usim.getTlvAtLength]
  refine and_congr_right fun hpos => ?_
  by_cases htag : a.mem pos = nasDaTag
  · simp only [htag, if_true, bind_assoc, Arr.fetch_bind_eq_some, Arr.slice_bind_eq_some, true_imp_iff]
    rw [and_assoc]
    refine and_congr_right fun hlen => and_congr_left' ?_
    have h0 := hpos.1
    have h1 := hlen.2
    omega
  · simp only [htag, if_false, false_imp_iff, true_and]
    rfl

end Elements

/-! ### Rows of elements -/

/-- `vtq_usim_plmn_nn_t` -/
structure PlmnNn where
  fullName : Tlv
  shortName : Tlv
deriving DecidableEq, Repr

/-- `vtq_usim_read_plmn_nn` -/
def decodePlmnNn (a : Arr) (c : PlmnNn) : Option PlmnNn := do
  let fullName ← getTlv a 0x43 0 c.fullName
  let shortName ← getTlv a 0x45 fullName.2 c.shortName
  some ⟨fullName.1, shortName.1⟩

/-- `vtq_usim_read_nas_sec_ctx` -/
def decodeNasSecCtx (a : Arr) (ctx : NasSecurityCtx) : Option NasSecurityCtx := do
  let tag ← a.fetch 0
  if tag = 0xa0 then
    let length ← a.fetch 1
    let ngksi ← getTlv a 0x80 2 ctx.ngksi
    let kamf ← getTlv a 0x81 ngksi.2 ctx.kamf
    let ulNascount ← getTlv a 0x82 kamf.2 ctx.ulNascount
    let dlNascount ← getTlv a 0x83 ulNascount.2 ctx.dlNascount
    let intEncId ← getTlv a 0x84 dlNascount.2 ctx.intEncId
    let epsIntEncId ← getTlv a 0x85 intEncId.2 ctx.epsIntEncId
    some
      { nasSecCtxTag := tag
        nasSecCtxLen := length.toNat
        ngksi := ngksi.1
        kamf := kamf.1
        ulNascount := ulNascount.1
        dlNascount := dlNascount.1
        intEncId := intEncId.1
        epsIntEncId := epsIntEncId.1 }
  else some { ctx with nasSecCtxTag := tag }

/-- `vtq_usim_read_nasconfig` -/
def decodeNasconfig (a : Arr) (c : Nasconfig) : Option Nasconfig := do
  let signallingPriority ← getTlv a 0x80 0 c.signallingPriority
  let nmoIBehaviour ← getTlv a 0x81 signallingPriority.2 c.nmoIBehaviour
  let attachWithImsi ← getTlv a 0x82 nmoIBehaviour.2 c.attachWithImsi
  let minPSearchTimer ← getTlv a 0x83 attachWithImsi.2 c.minPSearchTimer
  let extAccessBarring ← getTlv a 0x84 minPSearchTimer.2 c.extAccessBarring
  let timerT3245Behaviour ← getTlv a 0x85 extAccessBarring.2 c.timerT3245Behaviour
  let oNasSignallingLowPriority ← getTlv a 0x86 timerT3245Behaviour.2 c.oNasSignallingLowPriority
  let oExtendedAccessBarring ← getTlv a 0x87 oNasSignallingLowPriority.2 c.oExtendedAccessBarring
  let fastFirstHigherPriorityPlmn ← getTlv a 0x88 oExtendedAccessBarring.2 c.fastFirstHigherPriorityPlmn
  let eutraDisablingCapable ← getTlvAtLength a nasDaTag fastFirstHigherPriorityPlmn.2 c.eutraDisablingCapable
  let smRetryWaittime ← getTlv a 0x8a eutraDisablingCapable.2 c.smRetryWaittime
  let smRetryAtratChange ← getTlv a 0x8b smRetryWaittime.2 c.smRetryAtratChange
  let defaultDcnId ← getTlv a 0x8c smRetryAtratChange.2 c.defaultDcnId
  let eDataReportingAllowed ← getTlv a 0x8d defaultDcnId.2 c.eDataReportingAllowed
  some
    { signallingPriority := signallingPriority.1
      nmoIBehaviour := nmoIBehaviour.1
      attachWithImsi := attachWithImsi.1
      minPSearchTimer := minPSearchTimer.1
      extAccessBarring := extAccessBarring.1
      timerT3245Behaviour := timerT3245Behaviour.1
      oNasSignallingLowPriority := oNasSignallingLowPriority.1
      oExtendedAccessBarring := oExtendedAccessBarring.1
      fastFirstHigherPriorityPlmn := fastFirstHigherPriorityPlmn.1
      eutraDisablingCapable := eutraDisablingCapable.1
      smRetryWaittime := smRetryWaittime.1
      smRetryAtratChange := smRetryAtratChange.1
      defaultDcnId := defaultDcnId.1
      eDataReportingAllowed := eDataReportingAllowed.1 }

/-- The loop of `vtq_usim_read_acl` from `i` on. -/
def aclEntries (a : Arr) : ℕ → ℕ → (ℕ → Tlv) × ℤ → Option ((ℕ → Tlv) × ℤ)
  | 0, _, st => some st
  | left + 1, i, st => do
    let r ← getTlv a aclTag st.2 (st.1 i)
    aclEntries a left (i + 1) (Function.update st.1 i r.1, r.2)

/-- `vtq_usim_read_acl` -/
def decodeAcl (a : Arr) (acl : Acl) : Option Acl := do
  let n ← a.fetch 0
  let count := if aclMaxList ≤ n.toNat then aclMaxList else n.toNat
  let st ← aclEntries a count 0 (acl.tlvList, 1)
  some ⟨count, st.1⟩

/-- The security context is inside when its elements are. -/
def SecCtxInside (a : Arr) : Prop :=
  a.Inside 0 ∧ (a.mem 0 = 0xa0 → a.Inside 1 ∧ ElementsInside a [0x80, 0x81, 0x82, 0x83, 0x84, 0x85] 2)

/-- The list is inside when the elements are that the loop looks at. -/
def AclInside (a : Arr) : Prop :=
  a.Inside 0 ∧ ElementsInside a (List.replicate (min aclMaxList (a.mem 0).toNat) aclTag) 1

section Rows

variable {a : Arr}

theorem getTlv_snd {tag : Byte} (hne : tag ≠ nasDaTag) (pos : ℤ) (t : Tlv) :
    (Usim.getTlv a.mem tag pos t).2 = nextElement a.mem tag pos := by
  rw [nextElement, Usim.getTlv, if_neg hne]
  split <;> rfl

theorem getTlvAtLength_snd (pos : ℤ) (t : Tlv) :
    (Usim.getTlvAtLength a.mem nasDaTag pos t).2 = nextElement a.mem nasDaTag pos := by
  rw [nextElement, Usim.getTlvAtLength, if_pos rfl]
  split <;> rfl

theorem decodePlmnNn_ne_none_iff (c : PlmnNn) : decodePlmnNn a c ≠ none ↔ ElementsInside a [0x43, 0x45] 0 := by
  rw [Option.ne_none_iff_exists', decodePlmnNn]
  simp (disch := decide) only [getTlv_bind_eq_some, getTlv_snd, ElementsInside, exists_and_left, Option.some.injEq,
    exists_eq', and_true]

theorem decodeNasSecCtx_eq_some_iff (ctx x : NasSecurityCtx) :
    decodeNasSecCtx a ctx = some x ↔ SecCtxInside a ∧ x = Usim.decodeNasSecCtx a.mem ctx := by
  rw [decodeNasSecCtx, Usim.decodeNasSecCtx, SecCtxInside, Arr.fetch_bind_eq_some, and_assoc]
  refine and_congr_right fun _ => ?_
  by_cases htag : a.mem 0 = 0xa0
  · simp (disch := decide) only [htag, if_true, true_imp_iff, Arr.fetch_bind_eq_some, getTlv_bind_eq_some, getTlv_snd,
      ElementsInside, and_true, and_assoc, Option.some.injEq]
    rw [eq_comm]
  · simp only [htag, if_false, false_imp_iff, true_and, Option.some.injEq]
    exact eq_comm

theorem decodeNasconfig_eq_some_iff (c x : Nasconfig) :
    decodeNasconfig a c = some x ↔ ElementsInside a nasTags 0 ∧ x = Usim.decodeNasconfig a.mem c := by
  have h89 : (0x89 : Byte) = nasDaTag := rfl
  rw [decodeNasconfig, Usim.decodeNasconfig, h89]
  simp (disch := decide) only [getTlv_bind_eq_some, getTlvAtLength_bind_eq_some, getTlv_snd, getTlvAtLength_snd, nasTags,
    tagsBefore, tagsBehind, List.cons_append, List.nil_append, ElementsInside, and_true, and_assoc, Option.some.injEq]
  rw [eq_comm]

theorem aclEntries_eq_some_iff (left : ℕ) : ∀ {i : ℕ} {st st' : (ℕ → Tlv) × ℤ},
    aclEntries a left i st = some st' ↔ ElementsInside a (List.replicate left aclTag) st.2 ∧
      st' = (List.range' i left).foldl (fun st i => aclRound a.mem i st) st := by
  induction left with
  | zero =>
    intro i st st'
    rw [aclEntries, Option.some.injEq]
    exact eq_comm.trans (and_iff_right trivial).symm
  | succ left ih =>
    intro i st st'
    have hne : aclTag ≠ nasDaTag := by decide
    rw [aclEntries, getTlv_bind_eq_some hne, ih, List.replicate_succ, ElementsInside, List.range'_succ, List.foldl_cons,
      aclRound, and_assoc, getTlv_snd hne]

/-- The list is read as `decodeAcl` reads it. -/
theorem decodeAcl_eq_some_iff (acl x : Acl) : decodeAcl a acl = some x ↔ AclInside a ∧ x = Usim.decodeAcl a.mem acl := by
  have hcount : (if aclMaxList ≤ (a.mem 0).toNat then aclMaxList else (a.mem 0).toNat) =
      min aclMaxList (a.mem 0).toNat := rfl
  rw [decodeAcl, Usim.decodeAcl, AclInside, Arr.fetch_bind_eq_some, and_assoc, hcount]
  refine and_congr_right fun _ => ?_
  constructor
  · intro h
    obtain ⟨st, hst, hx⟩ := Option.bind_eq_some_iff.mp h
    obtain ⟨hin, rfl⟩ := (aclEntries_eq_some_iff _).mp hst
    rw [← List.range_eq_range'] at hx
    exact ⟨hin, (Option.some.inj hx).symm⟩
  · rintro ⟨hin, rfl⟩
    refine Option.bind_eq_some_iff.mpr ⟨_, (aclEntries_eq_some_iff _).mpr ⟨hin, rfl⟩, ?_⟩
    rw [← List.range_eq_range']
    rfl

end Rows

/-! ### Long lengths -/

/-- The length of a key; see `keyLength`. -/
def getKeyLength (a : Arr) (pos off : ℤ) (octets : ℕ) : Option (ℕ × ℕ) := do
  let n ← a.fetch pos
  if n.toNat > 127 then
    let octets := (n &&& 0x7f).toNat
    let l ← a.slice (pos + off) octets
    some ((l.map BitVec.toNat).sum, octets)
  else some (n.toNat, octets)

/-- The length of a list; see `listLength`. -/
def getListLength (a : Arr) (pos : ℤ) (octets : ℕ) : Option (ℕ × ℕ) := do
  let n ← a.fetch pos
  if n.toNat > 127 then
    let octets := (n &&& 0x7f).toNat
    let l ← a.slice (pos + 1) octets
    some (n.toNat + (l.map BitVec.toNat).sum, octets)
  else some (n.toNat, octets)

/-- The length at `pos` is inside, with its octets from `pos + off` on. -/
def LengthInside (a : Arr) (pos off : ℤ) : Prop :=
  a.Inside pos ∧ (127 < (a.mem pos).toNat →
    (a.mem pos &&& 0x7f).toNat = 0 ∨ (0 ≤ pos + off ∧ pos + off + (a.mem pos &&& 0x7f).toNat ≤ a.size))

section Lengths

variable {a : Arr} {pos off : ℤ} {octets : ℕ} {α : Type} {f : ℕ × ℕ → Option α} {x : α}

theorem bytes_eq_map (m : Mem) (n : ℕ) : ∀ p : ℤ, bytes m p n = (List.range n).map fun i : ℕ => m (p + i) := by
  induction n with
  | zero => exact fun _ => rfl
  | succ n ih =>
    intro p
    rw [bytes, ih, List.range_succ_eq_map, List.map_cons, List.map_map, Nat.cast_zero, add_zero]
    refine congrArg _ (List.map_congr_left fun i _ => ?_)
    show m (p + 1 + i) = m (p + (i + 1 : ℕ))
    push_cast
    ring_nf

theorem sum_octets (m : Mem) (p : ℤ) (n : ℕ) :
    ((bytes m p n).map BitVec.toNat).sum = ((List.range n).map fun i : ℕ => (m (p + i)).toNat).sum := by
  rw [bytes_eq_map, List.map_map]
  rfl

/-- A length of either kind, `sum` being what it makes of its first byte and the sum of
the others. -/
theorem length_bind_eq_some (sum : Byte → ℕ → ℕ) :
    ((do
      let n ← a.fetch pos
      if n.toNat > 127 then
        let octets := (n &&& 0x7f).toNat
        let l ← a.slice (pos + off) octets
        some (sum n (l.map BitVec.toNat).sum, octets)
      else some (n.toNat, octets)) >>= f) = some x ↔
      LengthInside a pos off ∧
        f (if (a.mem pos).toNat > 127 then
          let octets := (a.mem pos &&& 0x7f).toNat
          (sum (a.mem pos) ((List.range octets).map fun i : ℕ => (a.mem (pos + off + i)).toNat).sum, octets)
        else ((a.mem pos).toNat, octets)) = some x := by
  rw [bind_assoc, Arr.fetch_bind_eq_some, LengthInside, and_assoc]
  refine and_congr_right fun _ => ?_
  by_cases hlong : (a.mem pos).toNat > 127
  · simp only [hlong, if_true, true_imp_iff, bind_assoc, Arr.slice_bind_eq_some, sum_octets]
    rfl
  · simp only [hlong, if_false, false_imp_iff, true_and]
    rfl

theorem getKeyLength_bind_eq_some : (getKeyLength a pos off octets >>= f) = some x ↔
    LengthInside a pos off ∧ f (keyLength a.mem pos off octets) = some x :=
  length_bind_eq_some fun _ n => n

theorem getListLength_bind_eq_some : (getListLength a pos octets >>= f) = some x ↔
    LengthInside a pos 1 ∧ f (listLength a.mem pos octets) = some x :=
  length_bind_eq_some fun n m => n.toNat + m

end Lengths

/-! ### The NAS authentication keys -/

/-- A key is read if it has the tag that is expected. The octets of its length begin
`off` behind the length byte. -/
def getKey (a : Arr) (expected : Byte) (pos off : ℤ) (octets : ℕ) (t : Tlv) : Option (Tlv × ℤ × ℕ) := do
  let tag ← a.fetch pos
  if tag = expected then
    let l ← getKeyLength a (pos + 1) off octets
    let value ← a.slice (pos + 2 + l.2) l.1
    some (⟨tag, value⟩, pos + 2 + l.2 + l.1, l.2)
  else some ({ t with tag := tag }, pos, octets)

/-- `vtq_usim_read_nas_auth_keys` -/
def decodeNasAuthKeys (a : Arr) (keys : NasAuthKeys) : Option NasAuthKeys := do
  let kausf ← getKey a 0x80 0 1 0 keys.kausf
  let kseaf ← getKey a 0x81 kausf.2.1 2 kausf.2.2 keys.kseaf
  some ⟨kausf.1, kseaf.1⟩

/-- Where the pointer is after a key, and the count of octets. -/
def nextKey (m : Mem) (tag : Byte) (pos off : ℤ) (octets : ℕ) : ℤ × ℕ :=
  if m pos = tag then
    let l := keyLength m (pos + 1) off octets
    (pos + 2 + l.2 + l.1, l.2)
  else (pos, octets)

/-- The key at `pos` is inside, if it has the tag. -/
def KeyInside (a : Arr) (tag : Byte) (pos off : ℤ) (octets : ℕ) : Prop :=
  a.Inside pos ∧ (a.mem pos = tag → LengthInside a (pos + 1) off ∧
    let l := keyLength a.mem (pos + 1) off octets
    l.1 = 0 ∨ (0 ≤ pos + 2 + l.2 ∧ pos + 2 + l.2 + l.1 ≤ a.size))

/-- Both keys are inside. -/
def KeysInside (a : Arr) : Prop :=
  let next := nextKey a.mem 0x80 0 1 0
  KeyInside a 0x80 0 1 0 ∧ KeyInside a 0x81 next.1 2 next.2

section Keys

variable {a : Arr}

theorem getKey_bind_eq_some {tag : Byte} {pos off : ℤ} {octets : ℕ} {t : Tlv} {α : Type} {f : Tlv × ℤ × ℕ → Option α}
    {x : α} : (getKey a tag pos off octets t >>= f) = some x ↔ KeyInside a tag pos off octets ∧
      f (if a.mem pos = tag then
          let l := keyLength a.mem (pos + 1) off octets
          ⟨a.mem pos, bytes a.mem (pos + 2 + l.2) l.1⟩
        else { t with tag := a.mem pos }, nextKey a.mem tag pos off octets) = some x := by
  rw [getKey, bind_assoc, Arr.fetch_bind_eq_some, KeyInside, and_assoc, nextKey]
  refine and_congr_right fun _ => ?_
  by_cases htag : a.mem pos = tag
  · simp only [htag, if_true, true_imp_iff, bind_assoc, getKeyLength_bind_eq_some, Arr.slice_bind_eq_some, and_assoc]
    rfl
  · simp only [htag, if_false, false_imp_iff, true_and]
    rfl

theorem decodeNasAuthKeys_eq_some_iff (keys x : NasAuthKeys) :
    decodeNasAuthKeys a keys = some x ↔ KeysInside a ∧ x = Usim.decodeNasAuthKeys a.mem keys := by
  rw [decodeNasAuthKeys, getKey_bind_eq_some, getKey_bind_eq_some, KeysInside, and_assoc, Option.some.injEq]
  refine and_congr_right fun _ => and_congr_right fun _ => eq_comm.trans ?_
  rw [Usim.decodeNasAuthKeys, nextKey]
  by_cases h80 : a.mem 0 = 0x80
  · simp only [h80, if_true, zero_add]
  · simp only [h80, if_false]

end Keys

/-! ### The schemes and the keys of the SUCI -/

/-- The loop over the schemes, from `i` on: the identifiers and the indices. -/
def readSchemes (a : Arr) (octets : ℕ) : ℕ → ℕ → Option (List (Byte × Byte))
  | 0, _ => some []
  | left + 1, i => do
    let id ← a.fetch (1 + octets + i)
    let index ← a.fetch (1 + octets + i + 1)
    let rest ← readSchemes a octets left (i + 1)
    some ((id, index) :: rest)

/-- What the loop over the keys takes in one round; nothing for the index `0`. -/
structure SuciKey where
  id : Byte
  key : List Byte
deriving DecidableEq, Repr

/-- The identifier of a key is read when the list begins with one. -/
def keyId (a : Arr) (idTag : Byte) (p : ℤ) : Option Byte := if idTag = 0x80 then a.fetch (p + 2) else some 0

/-- One round for an index that is not `0`: the pointer, the count of octets and the
key. -/
def readKey (a : Arr) (idTag : Byte) (p : ℤ) (octets : ℕ) : Option ((ℤ × ℕ) × SuciKey) := do
  let id ← keyId a idTag p
  let p := p + 3
  let tag ← a.fetch p
  if tag = 0x81 then
    let l ← getKeyLength a (p + 1) 4 octets
    let key ← a.slice (p + 2 + l.2) l.1
    some ((p + 1 + l.2 + l.1, l.2), ⟨id, key⟩)
  else some ((p, octets), ⟨id, []⟩)

/-- The loop over the keys, for the indices. -/
def readKeys (a : Arr) (idTag : Byte) : List Byte → ℤ × ℕ → Option (List SuciKey)
  | [], _ => some []
  | k :: ks, c =>
    if k = 0 then readKeys a idTag ks c
    else do
      let r ← readKey a idTag c.1 c.2
      let rest ← readKeys a idTag ks r.1
      some (r.2 :: rest)

/-- What `vtq_usim_read_suci_calc_info` takes from its buffer: the schemes with their
indices, and the keys for them. -/
structure SuciLists where
  schemes : List (Byte × Byte)
  keys : List SuciKey
deriving DecidableEq, Repr

/-- `vtq_usim_read_suci_calc_info` -/
def decodeSuciCalcInfo (a : Arr) : Option SuciLists := do
  let tag ← a.fetch 0
  if tag = 0xa0 then
    let l ← getListLength a 1 1
    let num := BitVec.ofNat 8 (l.1 / 2)
    let schemes ← readSchemes a l.2 num.toNat 0
    let p : ℤ := 1 + l.2 + l.1
    let tag ← a.fetch p
    if tag = 0xa1 then
      let l' ← getListLength a (p + 1) 0
      let p := p + 1 + 1 + l'.2
      let idTag ← a.fetch p
      let keys ← readKeys a idTag (schemes.map Prod.snd) (p, 0)
      some ⟨schemes, keys⟩
    else some ⟨schemes, []⟩
  else some ⟨[], []⟩

/-- The key that the pointer finds is inside. -/
def KeyAtInside (a : Arr) (p : ℤ) (octets : ℕ) : Prop :=
  a.Inside (p + 3) ∧ (a.mem (p + 3) = 0x81 → LengthInside a (p + 3 + 1) 4 ∧
    let l := keyLength a.mem (p + 3 + 1) 4 octets
    l.1 = 0 ∨ (0 ≤ p + 3 + 2 + l.2 ∧ p + 3 + 2 + l.2 + l.1 ≤ a.size))

/-- Where the pointer is after it, and the count of octets. -/
def nextKeyAt (m : Mem) (p : ℤ) (octets : ℕ) : ℤ × ℕ :=
  if m (p + 3) = 0x81 then
    let l := keyLength m (p + 3 + 1) 4 octets
    (p + 3 + 1 + l.2 + l.1, l.2)
  else (p + 3, octets)

/-- The keys for the indices that are not `0` are inside. -/
def KeyListInside (a : Arr) : List Byte → ℤ × ℕ → Prop
  | [], _ => True
  | k :: ks, c =>
    if k = 0 then KeyListInside a ks c else KeyAtInside a c.1 c.2 ∧ KeyListInside a ks (nextKeyAt a.mem c.1 c.2)

/-- The schemes and the keys are inside. -/
def SuciInside (a : Arr) : Prop :=
  let l := listLength a.mem 1 1
  let num := (BitVec.ofNat 8 (l.1 / 2)).toNat
  let p : ℤ := 1 + l.2 + l.1
  let l' := listLength a.mem (p + 1) 0
  a.Inside 0 ∧ (a.mem 0 = 0xa0 → LengthInside a 1 1 ∧ (num = 0 ∨ a.Inside (1 + l.2 + num)) ∧ a.Inside p ∧
    (a.mem p = 0xa1 → LengthInside a (p + 1) 1 ∧ a.Inside (p + 1 + 1 + l'.2) ∧
      KeyListInside a ((List.range num).map (keyIndex a.mem l.2)) (p + 1 + 1 + l'.2, 0)))

section Suci

variable {a : Arr}

/-- The schemes are read up to the last index. -/
theorem readSchemes_eq_some_iff {octets : ℕ} (left : ℕ) : ∀ {i : ℕ} {x : List (Byte × Byte)},
    readSchemes a octets left i = some x ↔ (left = 0 ∨ a.Inside (1 + octets + (i + left : ℕ))) ∧
      x = (List.range' i left).map fun i : ℕ => (a.mem (1 + octets + i), keyIndex a.mem octets i) := by
  induction left with
  | zero =>
    intro i x
    rw [readSchemes, Option.some.injEq]
    exact eq_comm.trans (and_iff_right (.inl rfl)).symm
  | succ left ih =>
    intro i x
    rw [readSchemes, Arr.fetch_bind_eq_some, Arr.fetch_bind_eq_some, Option.bind_eq_bind, Option.bind_eq_some_iff]
    simp only [ih, Option.some.injEq, List.range'_succ, List.map_cons]
    constructor
    · rintro ⟨_, ⟨h0, hlt⟩, r, ⟨hrest, rfl⟩, rfl⟩
      refine ⟨.inr ?_, rfl⟩
      rcases hrest with rfl | ⟨h0', hlt'⟩
      · exact ⟨by omega, by push_cast; omega⟩
      · exact ⟨by omega, by push_cast at hlt' ⊢; omega⟩
    · rintro ⟨hlast, rfl⟩
      obtain ⟨h0, hlt⟩ := hlast.resolve_left (Nat.succ_ne_zero left)
      push_cast at hlt
      refine ⟨⟨by omega, by omega⟩, ⟨by omega, by omega⟩, _, ⟨?_, rfl⟩, rfl⟩
      exact .inr ⟨by omega, by push_cast; omega⟩

theorem keyId_bind_eq_some {idTag : Byte} {p : ℤ} (hp : 0 ≤ p) (h3 : a.Inside (p + 3)) {α : Type} {f : Byte → Option α}
    {x : α} : (keyId a idTag p >>= f) = some x ↔ f (if idTag = 0x80 then a.mem (p + 2) else 0) = some x := by
  have h2 : a.Inside (p + 2) := ⟨by omega, by have := h3.2; omega⟩
  rw [keyId]
  split
  · exact Arr.fetch_bind_eq_some.trans (and_iff_right h2)
  · rfl

theorem readKey_bind_eq_some {idTag : Byte} {p : ℤ} (hp : 0 ≤ p) {octets : ℕ} {α : Type}
    {f : (ℤ × ℕ) × SuciKey → Option α} {x : α} :
    (readKey a idTag p octets >>= f) = some x ↔ KeyAtInside a p octets ∧
      f (nextKeyAt a.mem p octets, ⟨if idTag = 0x80 then a.mem (p + 2) else 0,
        if a.mem (p + 3) = 0x81 then
          let l := keyLength a.mem (p + 3 + 1) 4 octets
          bytes a.mem (p + 3 + 2 + l.2) l.1
        else []⟩) = some x := by
  rw [readKey, bind_assoc, KeyAtInside, nextKeyAt, and_assoc]
  by_cases h3 : a.Inside (p + 3)
  swap
  · refine iff_of_false (fun h => ?_) fun h => h3 h.1
    obtain ⟨id, -, h⟩ := Option.bind_eq_some_iff.mp h
    rw [bind_assoc] at h
    exact h3 (Arr.fetch_bind_eq_some.mp h).1
  rw [keyId_bind_eq_some hp h3, bind_assoc, Arr.fetch_bind_eq_some]
  refine and_congr_right fun _ => ?_
  by_cases htag : a.mem (p + 3) = 0x81
  · simp only [htag, if_true, true_imp_iff, bind_assoc, getKeyLength_bind_eq_some, Arr.slice_bind_eq_some, and_assoc]
    rfl
  · simp only [htag, if_false, false_imp_iff, true_and]
    rfl

theorem exists_readKeys_iff {idTag : Byte} (ks : List Byte) : ∀ {c : ℤ × ℕ}, 0 ≤ c.1 →
    ((∃ x, readKeys a idTag ks c = some x) ↔ KeyListInside a ks c) := by
  induction ks with
  | nil => exact fun _ => iff_of_true ⟨[], rfl⟩ trivial
  | cons k ks ih =>
    intro c hc
    rw [KeyListInside]
    simp only [readKeys]
    by_cases hk : k = 0
    · rw [if_pos hk]
      simp only [hk, if_true]
      exact ih hc
    rw [if_neg hk]
    simp only [hk, if_false, readKey_bind_eq_some hc, exists_and_left]
    have hnext : 0 ≤ (nextKeyAt a.mem c.1 c.2).1 := by
      rw [nextKeyAt]
      split
      · dsimp only
        omega
      · dsimp only
        omega
    rw [← ih hnext]
    refine and_congr_right fun _ => ⟨?_, ?_⟩
    · rintro ⟨x, hx⟩
      obtain ⟨rest, hrest, -⟩ := Option.bind_eq_some_iff.mp hx
      exact ⟨rest, hrest⟩
    · rintro ⟨rest, hrest⟩
      exact ⟨_, Option.bind_eq_some_iff.mpr ⟨rest, hrest, rfl⟩⟩

/-- What follows reads no more. -/
theorem exists_readKeys_bind_iff {idTag : Byte} {ks : List Byte} {c : ℤ × ℕ} (hc : 0 ≤ c.1) {α : Type}
    {f : List SuciKey → α} :
    (∃ x, (readKeys a idTag ks c >>= fun keys => some (f keys)) = some x) ↔ KeyListInside a ks c := by
  rw [← @exists_readKeys_iff a idTag ks c hc]
  constructor
  · rintro ⟨x, hx⟩
    obtain ⟨keys, hkeys, -⟩ := Option.bind_eq_some_iff.mp hx
    exact ⟨keys, hkeys⟩
  · rintro ⟨keys, hkeys⟩
    exact ⟨_, Option.bind_eq_some_iff.mpr ⟨keys, hkeys, rfl⟩⟩

/-- The loop over the schemes, in front of what follows. -/
theorem readSchemes_bind_eq_some {octets num : ℕ} {α : Type} {f : List (Byte × Byte) → Option α} {x : α} :
    (readSchemes a octets num 0 >>= f) = some x ↔ (num = 0 ∨ a.Inside (1 + octets + num)) ∧
      f ((List.range num).map fun i : ℕ => (a.mem (1 + octets + i), keyIndex a.mem octets i)) = some x := by
  rw [Option.bind_eq_bind, Option.bind_eq_some_iff]
  simp only [readSchemes_eq_some_iff, and_assoc, exists_and_left, zero_add, List.range_eq_range']
  exact and_congr_right fun _ => exists_eq_left

theorem decodeSuciCalcInfo_ne_none_iff : decodeSuciCalcInfo a ≠ none ↔ SuciInside a := by
  rw [Option.ne_none_iff_exists', decodeSuciCalcInfo, SuciInside]
  simp only [Arr.fetch_bind_eq_some, exists_and_left]
  refine and_congr_right fun _ => ?_
  by_cases htag : a.mem 0 = 0xa0
  swap
  · simp only [htag, if_false, false_imp_iff, iff_true]
    exact ⟨_, rfl⟩
  simp only [htag, if_true, true_imp_iff, getListLength_bind_eq_some, readSchemes_bind_eq_some, Arr.fetch_bind_eq_some,
    exists_and_left]
  refine and_congr_right fun _ => and_congr_right fun _ => and_congr_right fun hp => ?_
  by_cases htag' : a.mem (1 + (listLength a.mem 1 1).2 + (listLength a.mem 1 1).1) = 0xa1
  swap
  · simp only [htag', if_false, false_imp_iff, iff_true]
    exact ⟨_, rfl⟩
  simp only [htag', if_true, true_imp_iff, getListLength_bind_eq_some, Arr.fetch_bind_eq_some, exists_and_left,
    List.map_map]
  exact and_congr_right fun _ => and_congr_right fun hid => exists_readKeys_bind_iff hid.1

end Suci

end Bounds
end Usim
end La12xx
