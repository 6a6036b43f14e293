/-
# The NAS configuration

`vtq_usim_read_nasconfig`: fourteen optional TLVs in a row, each taken with one
pointer if its tag is there. The element for the E-UTRA capability does not
move the pointer behind its length byte, so that its value begins with it and
the pointer ends up one byte short. The module follows the pointer through the
elements for any choice of them; `readNasconfig_iff` says which files are read
as they are.
-/
import La12xx.Usim.Delivery

namespace La12xx
namespace Usim

open ByteMem Dialogue

/-! ### The function -/

/-- `USIM_NASCONFIG_FILEID` -/
def nasconfigFileid : Word := 0x6fe8

/-- `vtq_usim_nasconfig_t` -/
structure Nasconfig where
  signallingPriority : Tlv
  nmoIBehaviour : Tlv
  attachWithImsi : Tlv
  minPSearchTimer : Tlv
  extAccessBarring : Tlv
  timerT3245Behaviour : Tlv
  oNasSignallingLowPriority : Tlv
  oExtendedAccessBarring : Tlv
  fastFirstHigherPriorityPlmn : Tlv
  eutraDisablingCapable : Tlv
  smRetryWaittime : Tlv
  smRetryAtratChange : Tlv
  defaultDcnId : Tlv
  eDataReportingAllowed : Tlv
deriving DecidableEq, Repr

/-- The members in the order of the structure. -/
def Nasconfig.members (c : Nasconfig) : List Tlv :=
  [c.signallingPriority, c.nmoIBehaviour, c.attachWithImsi, c.minPSearchTimer, c.extAccessBarring, c.timerT3245Behaviour,
    c.oNasSignallingLowPriority, c.oExtendedAccessBarring, c.fastFirstHigherPriorityPlmn, c.eutraDisablingCapable,
    c.smRetryWaittime, c.smRetryAtratChange, c.defaultDcnId, c.eDataReportingAllowed]

/-- How `eutra_disabling_capable` is read: the pointer stays at the length byte. -/
def getTlvAtLength (m : Mem) (expected : Byte) (pos : ℤ) (t : Tlv) : Tlv × ℤ :=
  if m pos = expected then
    let length := (m (pos + 1)).toNat
    (⟨m pos, bytes m (pos + 1) length⟩, pos + 1 + length)
  else ({ t with tag := m pos }, pos)

/-- How `vtq_usim_read_nasconfig` fills in the caller's structure from its
buffer. -/
def decodeNasconfig (m : Mem) (c : Nasconfig) : Nasconfig :=
  let signallingPriority := getTlv m 0x80 0 c.signallingPriority
  let nmoIBehaviour := getTlv m 0x81 signallingPriority.2 c.nmoIBehaviour
  let attachWithImsi := getTlv m 0x82 nmoIBehaviour.2 c.attachWithImsi
  let minPSearchTimer := getTlv m 0x83 attachWithImsi.2 c.minPSearchTimer
  let extAccessBarring := getTlv m 0x84 minPSearchTimer.2 c.extAccessBarring
  let timerT3245Behaviour := getTlv m 0x85 extAccessBarring.2 c.timerT3245Behaviour
  let oNasSignallingLowPriority := getTlv m 0x86 timerT3245Behaviour.2 c.oNasSignallingLowPriority
  let oExtendedAccessBarring := getTlv m 0x87 oNasSignallingLowPriority.2 c.oExtendedAccessBarring
  let fastFirstHigherPriorityPlmn := getTlv m 0x88 oExtendedAccessBarring.2 c.fastFirstHigherPriorityPlmn
  let eutraDisablingCapable := getTlvAtLength m 0x89 fastFirstHigherPriorityPlmn.2 c.eutraDisablingCapable
  let smRetryWaittime := getTlv m 0x8a eutraDisablingCapable.2 c.smRetryWaittime
  let smRetryAtratChange := getTlv m 0x8b smRetryWaittime.2 c.smRetryAtratChange
  let defaultDcnId := getTlv m 0x8c smRetryAtratChange.2 c.defaultDcnId
  let eDataReportingAllowed := getTlv m 0x8d defaultDcnId.2 c.eDataReportingAllowed
  { signallingPriority := signallingPriority.1
    nmoIBehaviour := nmoIBehaviour.1
    attachWithImsi := attachWithImsi.1
    minPSearchTimer := minPSearchTimer.1
    extAccessBarring := extAccessBarring.1
    timerT3245Behaviour := timerT3245Behaviour.1
    oNasSignallingLowPriority := oNasSignallingLowPriority.1
    oExtendedAccessBarring := oExtendedAccessBarring.1
    fastFirstHigherPriorityPlmn := fastFirstHigherPriorityPlmn.1
    eutraDisablingCapable := eutraDisablingCapable.1
    smRetryWaittime := smRetryWaittime.1
    smRetryAtratChange := smRetryAtratChange.1
    defaultDcnId := defaultDcnId.1
    eDataReportingAllowed := eDataReportingAllowed.1 }

/-- `vtq_usim_read_nasconfig`: the return value and the caller's structure. A
file that is too long ends the function with what the reading returned. -/
def readNasconfig (S : Sim) (E : Env) (c : Nasconfig) (nasLen : ℤ) : Card (ℤ × Nasconfig) :=
  if ¬ E.malloc nasLen then pure (-1, c)
  else do
    let out ← readTransparent S E nasconfigFileid 0 E.heap 0
    if out.ret < 0 then pure (out.ret, c)
    else if out.len > nasLen then pure (out.ret, c)
    else pure (0, decodeNasconfig out.buf c)

/-! ### One element after the other -/

/-- `NAS_DA_TAG` -/
def nasDaTag : Byte := 0x89

/-- The tags in front of it, and those behind it. -/
def tagsBefore : List Byte := [0x80, 0x81, 0x82, 0x83, 0x84, 0x85, 0x86, 0x87, 0x88]

def tagsBehind : List Byte := [0x8a, 0x8b, 0x8c, 0x8d]

def nasTags : List Byte := tagsBefore ++ nasDaTag :: tagsBehind

/-- One element. -/
def getElement (m : Mem) (tag : Byte) (pos : ℤ) (t : Tlv) : Tlv × ℤ :=
  if tag = nasDaTag then getTlvAtLength m tag pos t else getTlv m tag pos t

/-- The elements with the tags, from `pos` on. -/
def decodeElements (m : Mem) : List Byte → ℤ → List Tlv → List Tlv
  | tag :: tags, pos, t :: ts => (getElement m tag pos t).1 :: decodeElements m tags (getElement m tag pos t).2 ts
  | _, _, _ => []

theorem members_decodeNasconfig (m : Mem) (c : Nasconfig) :
    (decodeNasconfig m c).members = decodeElements m nasTags 0 c.members := by
  simp only [decodeNasconfig, Nasconfig.members, nasTags, tagsBefore, tagsBehind, List.cons_append, List.nil_append,
    decodeElements, getElement, nasDaTag, BitVec.reduceEq, if_true, if_false]

/-! ### The file -/

/-- The elements that are present, as they lie in the file. -/
def encodeElements : List Byte → List (Option (List Byte)) → List Byte
  | tag :: tags, some value :: vs => (Tlv.mk tag value).bytes ++ encodeElements tags vs
  | _ :: tags, none :: vs => encodeElements tags vs
  | _, _ => []

/-- What is expected of a member: an element that is present is there; of one
that is absent, length and value are as before, and the tag is another. -/
def ElementRight (tag : Byte) (v : Option (List Byte)) (before after : Tlv) : Prop :=
  match v with
  | some value => after = ⟨tag, value⟩
  | none => after.value = before.value ∧ after.tag ≠ tag

/-- What is expected of all members. -/
def ElementsRight : List Byte → List (Option (List Byte)) → List Tlv → List Tlv → Prop
  | tag :: tags, v :: vs, t :: ts, t' :: ts' => ElementRight tag v t t' ∧ ElementsRight tags vs ts ts'
  | [], [], [], [] => True
  | _, _, _, _ => False

/-- The byte is not one of the tags behind the last element that is present. -/
def Silent (x : Byte) : List Byte → List (Option (List Byte)) → Prop
  | tag :: tags, v :: vs => (v = none → (∀ w ∈ vs, w = none) → x ≠ tag) ∧ Silent x tags vs
  | _, _ => True

section Elements

variable {m : Mem} {pos : ℤ} {tag : Byte} {tags : List Byte} {v : Option (List Byte)} {vs : List (Option (List Byte))}
  {t : Tlv} {ts : List Tlv}

theorem encodeElements_of_absent : ∀ {tags : List Byte} {vs : List (Option (List Byte))}, (∀ w ∈ vs, w = none) →
    encodeElements tags vs = []
  | [], _, _ => by rw [encodeElements] <;> simp
  | _ :: _, [], _ => rfl
  | _ :: tags, v :: vs, h => by
    obtain rfl : v = none := h v List.mem_cons_self
    exact @encodeElements_of_absent tags vs fun w hw => h w (List.mem_cons_of_mem _ hw)

/-- What stands first among the elements is the tag of one of them. -/
theorem front_mem_tags : ∀ {tags : List Byte} {vs : List (Option (List Byte))}, tags.length = vs.length →
    Holds m pos (encodeElements tags vs) → (∃ w ∈ vs, w ≠ none) → m pos ∈ tags
  | [], [], _, _, hex => by simp at hex
  | tag :: tags, some value :: vs, _, h, _ => by
    rw [encodeElements, holds_append] at h
    rw [(holds_cons.mp h.1).1]
    exact List.mem_cons_self
  | tag :: tags, none :: vs, hlen, h, hex => by
    refine List.mem_cons_of_mem _ (front_mem_tags (Nat.succ.inj hlen) h ?_)
    obtain ⟨w, hw, hne⟩ := hex
    rcases List.mem_cons.mp hw with rfl | hw
    · exact absurd rfl hne
    · exact ⟨w, hw, hne⟩

/-- Another tag is only noted. -/
theorem getElement_of_ne (h : m pos ≠ tag) (t : Tlv) : getElement m tag pos t = ({ t with tag := m pos }, pos) := by
  rw [getElement, getTlvAtLength, getTlv, if_neg h, if_neg h, ite_self]

/-- The tag that is expected is stored. -/
theorem getElement_tag (h : m pos = tag) (t : Tlv) : (getElement m tag pos t).1.tag = tag := by
  rw [getElement, getTlvAtLength, getTlv, if_pos h, if_pos h]
  split <;> exact h

/-- An element that is present is read as it is, but one. -/
theorem getElement_present (hne : tag ≠ nasDaTag) {value : List Byte} (h : Holds m pos (Tlv.mk tag value).bytes)
    (hlen : value.length < 256) (t : Tlv) :
    getElement m tag pos t = (⟨tag, value⟩, pos + (Tlv.mk tag value).bytes.length) := by
  rw [getElement, if_neg hne]
  exact getTlv_holds h hlen t

/-- Without the odd element, the elements are read as they are if what is
behind them is not taken for one. -/
theorem elementsRight_iff : ∀ {tags : List Byte} {vs : List (Option (List Byte))} {ts : List Tlv} {pos : ℤ},
    tags.Nodup → tags.length = vs.length → ts.length = vs.length →
    (∀ p ∈ tags.zip vs, p.1 = nasDaTag → p.2 = none) → (∀ value, some value ∈ vs → value.length < 256) →
    Holds m pos (encodeElements tags vs) →
    (ElementsRight tags vs ts (decodeElements m tags pos ts) ↔
      Silent (m (pos + (encodeElements tags vs).length)) tags vs)
  | [], [], [], _, _, _, _, _, _, _ => Iff.rfl
  | tag :: tags, some value :: vs, t :: ts, pos, hnd, hl, hl', hodd, hval, h => by
    have hne : tag ≠ nasDaTag := fun he => by simpa using hodd (tag, some value) List.mem_cons_self he
    rw [encodeElements, holds_append] at h
    have hread := getElement_present hne h.1 (hval value List.mem_cons_self) t
    have ih := elementsRight_iff (List.nodup_cons.mp hnd).2 (Nat.succ.inj hl) (Nat.succ.inj hl')
      (fun p hp => hodd p (List.mem_cons_of_mem _ hp)) (fun value hv => hval value (List.mem_cons_of_mem _ hv)) h.2
    have hend : pos + ((Tlv.mk tag value).bytes ++ encodeElements tags vs).length =
        pos + (Tlv.mk tag value).bytes.length + (encodeElements tags vs).length := by
      rw [List.length_append]
      push_cast
      ring
    rw [decodeElements, hread, ElementsRight, Silent, encodeElements, hend, ih]
    simp [ElementRight]
  | tag :: tags, none :: vs, t :: ts, pos, hnd, hl, hl', hodd, hval, h => by
    obtain ⟨hnot, hnd'⟩ := List.nodup_cons.mp hnd
    have ih := elementsRight_iff hnd' (Nat.succ.inj hl) (Nat.succ.inj hl')
      (fun p hp => hodd p (List.mem_cons_of_mem _ hp)) (fun value hv => hval value (List.mem_cons_of_mem _ hv))
      (show Holds m pos (encodeElements tags vs) from h)
    rw [decodeElements, ElementsRight, Silent, encodeElements]
    by_cases htag : m pos = tag
    · -- only what is behind the elements can be the tag of an absent one
      have hnone : ∀ w ∈ vs, w = none := by
        by_contra hex
        obtain ⟨w, hw, hne⟩ : ∃ w ∈ vs, w ≠ none := by simpa using hex
        exact hnot (htag ▸ front_mem_tags (Nat.succ.inj hl) h ⟨w, hw, hne⟩)
      have hlen : (encodeElements tags vs).length = 0 := by rw [encodeElements_of_absent hnone, List.length_nil]
      refine iff_of_false (fun hr => hr.1.2 (getElement_tag htag t)) (fun hs => hs.1 rfl hnone ?_)
      rw [hlen, Nat.cast_zero, add_zero, htag]
    · have hhead : (none : Option (List Byte)) = none → (∀ w ∈ vs, w = none) →
          m (pos + (encodeElements tags vs).length) ≠ tag := by
        intro _ hnone
        rw [encodeElements_of_absent hnone, List.length_nil, Nat.cast_zero, add_zero]
        exact htag
      have hright : ElementRight tag none t { t with tag := m pos } := ⟨rfl, htag⟩
      rw [getElement_of_ne htag, ih]
      exact ⟨fun hr => ⟨hhead, hr.2⟩, fun hs => ⟨hright, hs.2⟩⟩

end Elements

/-! ### The odd element -/

section Odd

variable {m : Mem} {pos q : ℤ}

theorem elementsRight_append : ∀ {tags₁ tags₂ : List Byte} {vs₁ vs₂ : List (Option (List Byte))} {ts₁ ts₂ us₁ us₂ : List Tlv},
    ElementsRight tags₁ vs₁ ts₁ us₁ →
    (ElementsRight (tags₁ ++ tags₂) (vs₁ ++ vs₂) (ts₁ ++ ts₂) (us₁ ++ us₂) ↔ ElementsRight tags₂ vs₂ ts₂ us₂)
  | [], _, [], _, [], _, [], _, _ => Iff.rfl
  | _ :: _, _, _ :: _, _, _ :: _, _, _ :: _, _, h =>
    (and_iff_right h.1).trans (elementsRight_append h.2)

/-- Up to a byte that is not one of their tags, the elements are read as they
are, and the pointer is there. -/
theorem decodeElements_append : ∀ {tags : List Byte} {vs : List (Option (List Byte))} {ts : List Tlv} {pos : ℤ},
    tags.Nodup → tags.length = vs.length → ts.length = vs.length → nasDaTag ∉ tags →
    (∀ value, some value ∈ vs → value.length < 256) → Holds m pos (encodeElements tags vs) →
    m (pos + (encodeElements tags vs).length) ∉ tags →
    ∃ us, ElementsRight tags vs ts us ∧ ∀ rest ts', decodeElements m (tags ++ rest) pos (ts ++ ts') =
      us ++ decodeElements m rest (pos + (encodeElements tags vs).length) ts'
  | [], [], [], pos, _, _, _, _, _, _, _ => ⟨[], trivial, fun rest ts' => by simp [encodeElements]⟩
  | tag :: tags, some value :: vs, t :: ts, pos, hnd, hl, hl', hodd, hval, h, hend => by
    have hne : tag ≠ nasDaTag := fun he => hodd (he ▸ List.mem_cons_self)
    rw [encodeElements, holds_append] at h
    have hread := getElement_present hne h.1 (hval value List.mem_cons_self) t
    have hadd : pos + ((Tlv.mk tag value).bytes ++ encodeElements tags vs).length =
        pos + (Tlv.mk tag value).bytes.length + (encodeElements tags vs).length := by
      rw [List.length_append]
      push_cast
      ring
    rw [encodeElements, hadd] at hend ⊢
    obtain ⟨us, hright, hrest⟩ := decodeElements_append (List.nodup_cons.mp hnd).2 (Nat.succ.inj hl)
      (Nat.succ.inj hl') (fun hm => hodd (List.mem_cons_of_mem _ hm))
      (fun value hv => hval value (List.mem_cons_of_mem _ hv)) h.2 (fun hm => hend (List.mem_cons_of_mem _ hm))
    refine ⟨⟨tag, value⟩ :: us, ⟨rfl, hright⟩, fun rest ts' => ?_⟩
    rw [List.cons_append, List.cons_append, decodeElements, hread, hrest, List.cons_append]
  | tag :: tags, none :: vs, t :: ts, pos, hnd, hl, hl', hodd, hval, h, hend => by
    obtain ⟨hnot, hnd'⟩ := List.nodup_cons.mp hnd
    obtain ⟨us, hright, hrest⟩ := decodeElements_append hnd' (Nat.succ.inj hl)
      (Nat.succ.inj hl') (fun hm => hodd (List.mem_cons_of_mem _ hm))
      (fun value hv => hval value (List.mem_cons_of_mem _ hv)) h (fun hm => hend (List.mem_cons_of_mem _ hm))
    have htag : m pos ≠ tag := by
      intro htag
      by_cases hex : ∃ w ∈ vs, w ≠ none
      · exact hnot (htag ▸ front_mem_tags (Nat.succ.inj hl) h hex)
      · have hnone : ∀ w ∈ vs, w = none := by simpa using hex
        rw [encodeElements, encodeElements_of_absent hnone, List.length_nil, Nat.cast_zero, add_zero, htag] at hend
        exact hend List.mem_cons_self
    refine ⟨{ t with tag := m pos } :: us, ⟨⟨rfl, htag⟩, hright⟩, fun rest ts' => ?_⟩
    rw [List.cons_append, List.cons_append, decodeElements, getElement_of_ne htag, hrest, List.cons_append, encodeElements]

/-- From a byte that is not one of the tags, no element is found. -/
theorem elementsRight_of_not_mem : ∀ {tags : List Byte} {vs : List (Option (List Byte))} {ts : List Tlv},
    tags.length = vs.length → ts.length = vs.length → m q ∉ tags →
    (ElementsRight tags vs ts (decodeElements m tags q ts) ↔ ∀ w ∈ vs, w = none)
  | [], [], [], _, _, _ => ⟨fun _ w hw => absurd hw (by simp), fun _ => trivial⟩
  | tag :: tags, v :: vs, t :: ts, hl, hl', hq => by
    have htag : m q ≠ tag := fun he => hq (he ▸ List.mem_cons_self)
    have ih := elementsRight_of_not_mem (Nat.succ.inj hl) (Nat.succ.inj hl')
      (fun hm => hq (List.mem_cons_of_mem _ hm))
    rw [decodeElements, ElementsRight, getElement_of_ne htag, ih, List.forall_mem_cons]
    refine and_congr_left fun _ => ?_
    cases v with
    | none => exact iff_of_true ⟨rfl, htag⟩ rfl
    | some value => exact iff_of_false (fun h => htag (congrArg Tlv.tag h)) (by simp)

/-- A byte in front of the elements that is taken for a tag is followed by that
tag, which is then taken for the length. -/
theorem length_of_misread : ∀ {tags : List Byte} {vs : List (Option (List Byte))} {ts : List Tlv},
    tags.length = vs.length → ts.length = vs.length → nasDaTag ∉ tags → m q ∈ tags →
    Holds m (q + 1) (encodeElements tags vs) → ElementsRight tags vs ts (decodeElements m tags q ts) →
    2 + (m q).toNat ≤ (encodeElements tags vs).length
  | tag :: tags, v :: vs, t :: ts, hl, hl', hodd, hq, h, hr => by
    rw [decodeElements, ElementsRight] at hr
    by_cases htag : m q = tag
    · have hne : tag ≠ nasDaTag := fun he => hodd (he ▸ List.mem_cons_self)
      cases v with
      | none => exact absurd (getElement_tag htag t) hr.1.2
      | some value =>
        rw [encodeElements, holds_append] at h
        have hfront : m (q + 1) = m q := (holds_cons.mp h.1).1.trans htag.symm
        have hvalue : bytes m (q + 2) (m q).toNat = value := by
          have h1 : (getElement m tag q t).1 = ⟨tag, value⟩ := hr.1
          rw [getElement, if_neg hne, getTlv, if_pos htag, hfront] at h1
          exact congrArg Tlv.value h1
        have hlen : (m q).toNat = value.length := by rw [← hvalue, length_bytes]
        rw [encodeElements, List.length_append, Tlv.length_bytes]
        show 2 + (m q).toNat ≤ 2 + value.length + _
        omega
    · rw [getElement_of_ne htag] at hr
      cases v with
      | some value => exact absurd (congrArg Tlv.tag hr.1) htag
      | none =>
        exact @length_of_misread tags vs ts (Nat.succ.inj hl) (Nat.succ.inj hl') (fun hm => hodd (List.mem_cons_of_mem _ hm))
          ((List.mem_cons.mp hq).resolve_left htag) h hr.2

/-- A list that begins with `x` and goes on with itself. -/
theorem take_cons_eq_iff : ∀ {v : List Byte} {x : Byte}, (x :: v).take v.length = v ↔ v = List.replicate v.length x
  | [], _ => by simp
  | y :: v, x => by
    rw [List.length_cons, List.take_succ_cons, List.replicate_succ, List.cons.injEq, List.cons.injEq]
    constructor
    · rintro ⟨rfl, h⟩
      exact ⟨rfl, take_cons_eq_iff.mp h⟩
    · rintro ⟨rfl, h⟩
      exact ⟨rfl, take_cons_eq_iff.mpr h⟩

/-- The odd element and those behind it are read as they are exactly when its
value is its length over and over, nothing follows it, and its last byte is not
taken for a tag. -/
theorem oddElement_iff {v : List Byte} {vs : List (Option (List Byte))} {t : Tlv} {ts : List Tlv}
    (hl : vs.length = tagsBehind.length) (hl' : ts.length = vs.length)
    (hfit : (Tlv.mk nasDaTag v).bytes.length + (encodeElements tagsBehind vs).length ≤ 255)
    (h : Holds m pos ((Tlv.mk nasDaTag v).bytes ++ encodeElements tagsBehind vs)) :
    ElementsRight (nasDaTag :: tagsBehind) (some v :: vs) (t :: ts)
        (decodeElements m (nasDaTag :: tagsBehind) pos (t :: ts)) ↔
      v = List.replicate v.length (BitVec.ofNat 8 v.length) ∧ BitVec.ofNat 8 v.length ∉ tagsBehind ∧ ∀ w ∈ vs, w = none := by
  rw [Tlv.length_bytes] at hfit
  rw [holds_append, Tlv.length_bytes, Tlv.bytes, holds_cons] at h
  obtain ⟨⟨htag, hvalue⟩, hbehind⟩ := h
  simp only at hvalue hbehind hfit
  obtain ⟨hlen, -⟩ := holds_cons.mp hvalue
  have hnat : (m (pos + 1)).toNat = v.length := by
    rw [hlen, BitVec.toNat_ofNat]
    exact Nat.mod_eq_of_lt (by omega)
  have hread : getElement m nasDaTag pos t =
      (⟨nasDaTag, (BitVec.ofNat 8 v.length :: v).take v.length⟩, pos + 1 + v.length) := by
    have hbytes : bytes m (pos + 1) v.length = (BitVec.ofNat 8 v.length :: v).take v.length := by
      have hsucc := bytes_add m (pos + 1) v.length 1
      rw [← hvalue.bytes_eq (n := v.length + 1) (by simp), hsucc, List.take_left' (length_bytes _ _ _)]
    rw [getElement, if_pos rfl, getTlvAtLength, if_pos htag, hnat, htag]
    simp only [hbytes]
  have hright : ElementRight nasDaTag (some v) t ⟨nasDaTag, (BitVec.ofNat 8 v.length :: v).take v.length⟩ ↔
      v = List.replicate v.length (BitVec.ofNat 8 v.length) := by
    rw [← take_cons_eq_iff]
    simp [ElementRight]
  rw [decodeElements, ElementsRight, hread, hright]
  refine and_congr_right fun hrep => ?_
  -- the pointer is at the last byte of the value, or at the length byte
  have hlast : m (pos + 1 + v.length) = BitVec.ofNat 8 v.length := by
    rw [hvalue.getD_eq (i := v.length) (by simp), hrep]
    cases v.length with
    | zero => simp
    | succ n => simp [List.getD_eq_getElem?_getD]
  have hnext : Holds m (pos + 1 + v.length + 1) (encodeElements tagsBehind vs) := by
    have hpos : pos + ((2 + v.length : ℕ) : ℤ) = pos + 1 + v.length + 1 := by
      push_cast
      ring
    rwa [hpos] at hbehind
  by_cases hmem : BitVec.ofNat 8 v.length ∈ tagsBehind
  · refine iff_of_false (fun hr => ?_) (fun hr => hr.1 hmem)
    have hle := length_of_misread hl.symm hl' (by decide) (hlast ▸ hmem) hnext hr
    have hbig : ∀ x ∈ tagsBehind, 0x8a ≤ x.toNat := by decide
    have h8a := hbig _ hmem
    rw [hlast] at hle
    rw [BitVec.toNat_ofNat, Nat.mod_eq_of_lt (by omega)] at hle h8a
    omega
  · rw [elementsRight_of_not_mem hl.symm hl' (hlast ▸ hmem)]
    exact (and_iff_right hmem).symm

end Odd

/-! ### The file that is read -/

/-- A byte that is no tag is not one of those behind the last element. -/
theorem silent_of_not_mem {x : Byte} : ∀ {tags : List Byte} {vs : List (Option (List Byte))}, x ∉ tags → Silent x tags vs
  | [], _, _ => trivial
  | _ :: _, [], _ => trivial
  | _ :: _, _ :: _, h =>
    ⟨fun _ _ he => h (he ▸ List.mem_cons_self), silent_of_not_mem fun hm => h (List.mem_cons_of_mem _ hm)⟩

/-- The configuration as it lies in the file. -/
def nasconfigFile (values : List (Option (List Byte))) (padding : List Byte) : List Byte :=
  encodeElements nasTags values ++ padding

/-- What is expected of a call for a file of the size: `0` and all members as
they are in the file, if there is room for it, and an error otherwise. -/
def NasconfigRight (values : List (Option (List Byte))) (size : ℕ) (nasLen : ℤ) (c₀ : Nasconfig) (r : ℤ × Nasconfig) :
    Prop :=
  if size ≤ nasLen then r.1 = 0 ∧ ElementsRight nasTags values c₀.members r.2.members else r.1 ≠ 0

/-- The condition on the file: the element for the E-UTRA capability, if it is
there, is the last one and has its length for every byte of its value, and that
is not the tag of a later element; if it is not there, the byte behind the
elements is not the tag of an absent one, as any padding is. -/
def NasconfigFits (values : List (Option (List Byte))) (padding : List Byte) (behind : Byte) : Prop :=
  match values.getD 9 none with
  | some v =>
    v = List.replicate v.length (BitVec.ofNat 8 v.length) ∧ BitVec.ofNat 8 v.length ∉ tagsBehind ∧
      ∀ w ∈ values.drop 10, w = none
  | none => padding ≠ [] ∨ Silent behind nasTags values

theorem length_le_of_some_mem : ∀ {tags : List Byte} {values : List (Option (List Byte))} {value : List Byte},
    tags.length = values.length → some value ∈ values → 2 + value.length ≤ (encodeElements tags values).length
  | [], [], _, _, hm => absurd hm (by simp)
  | tag :: tags, some value' :: values, value, hl, hm => by
    rw [encodeElements, List.length_append, Tlv.length_bytes]
    rcases List.mem_cons.mp hm with he | hm
    · obtain rfl := Option.some.inj he
      show 2 + value.length ≤ 2 + value.length + _
      omega
    · have ih := length_le_of_some_mem (Nat.succ.inj hl) hm
      omega
  | tag :: tags, none :: values, value, hl, hm => by
    have hm' : some value ∈ values := by simpa using hm
    exact @length_le_of_some_mem tags values value (Nat.succ.inj hl) hm'

theorem encodeElements_append : ∀ {tags₁ tags₂ : List Byte} {vs₁ vs₂ : List (Option (List Byte))},
    tags₁.length = vs₁.length →
    encodeElements (tags₁ ++ tags₂) (vs₁ ++ vs₂) = encodeElements tags₁ vs₁ ++ encodeElements tags₂ vs₂
  | [], _, [], _, _ => by simp [encodeElements]
  | _ :: tags₁, _, some value :: vs₁, _, h => by
    rw [List.cons_append, List.cons_append, encodeElements, encodeElements, encodeElements_append (Nat.succ.inj h),
      List.append_assoc]
  | _ :: tags₁, _, none :: vs₁, _, h => @encodeElements_append tags₁ _ vs₁ _ (Nat.succ.inj h)

section Decode

variable {m : Mem} {values : List (Option (List Byte))} {padding : List Byte} (hlen : values.length = 14)
  (hfile : (nasconfigFile values padding).length ≤ 255) (h : Holds m 0 (nasconfigFile values padding)) {ts : List Tlv}
  (hts : ts.length = 14)
include hlen hfile h hts

/-- A file without the odd element. -/
theorem decodeElements_of_absent (hpad : ∀ x ∈ padding, x ∉ nasTags) (h9 : values.getD 9 none = none) :
    ElementsRight nasTags values ts (decodeElements m nasTags 0 ts) ↔
      padding ≠ [] ∨ Silent (m (nasconfigFile values padding).length) nasTags values := by
  have hval : ∀ value, some value ∈ values → value.length < 256 := by
    intro value hv
    have hle : 2 + value.length ≤ (encodeElements nasTags values).length := length_le_of_some_mem hlen.symm hv
    rw [nasconfigFile, List.length_append] at hfile
    omega
  have hodd : ∀ p ∈ nasTags.zip values, p.1 = nasDaTag → p.2 = none := by
    intro p hp htag
    obtain ⟨i, hi, rfl⟩ := List.mem_iff_getElem.mp hp
    rw [List.length_zip, hlen] at hi
    have hi14 : i < 14 := hi.trans_le (by decide)
    rw [List.getElem_zip] at htag ⊢
    have h9' : i = 9 := by
      have hall : ∀ j < 14, nasTags.getD j 0 = nasDaTag → j = 9 := by decide
      refine hall i hi14 ?_
      rw [List.getD_eq_getElem _ _ (by exact hi14)]
      exact htag
    subst h9'
    rwa [List.getD_eq_getElem _ _ (by omega)] at h9
  obtain ⟨hheld, hbehind⟩ := holds_append.mp h
  rw [elementsRight_iff (by decide : nasTags.Nodup) hlen.symm (hts.trans hlen.symm) hodd hval hheld]
  cases padding with
  | nil => simp [nasconfigFile]
  | cons x padding =>
    have hx : m (0 + (encodeElements nasTags values).length) = x := (holds_cons.mp hbehind).1
    rw [hx]
    exact iff_of_true (silent_of_not_mem (hpad x List.mem_cons_self)) (.inl (by simp))

/-- A file with the odd element. -/
theorem decodeElements_of_present {v : List Byte} (h9 : values.getD 9 none = some v) :
    ElementsRight nasTags values ts (decodeElements m nasTags 0 ts) ↔
      v = List.replicate v.length (BitVec.ofNat 8 v.length) ∧ BitVec.ofNat 8 v.length ∉ tagsBehind ∧
        ∀ w ∈ values.drop 10, w = none := by
  have hsplit : values = values.take 9 ++ some v :: values.drop 10 := by
    rw [List.getD_eq_getElem _ _ (by omega)] at h9
    rw [← h9, ← List.drop_eq_getElem_cons, List.take_append_drop]
  obtain ⟨t, hts9⟩ : ∃ t, ts = ts.take 9 ++ t :: ts.drop 10 :=
    ⟨ts[9], by rw [← List.drop_eq_getElem_cons, List.take_append_drop]⟩
  have hvs₁ : (values.take 9).length = 9 := by rw [List.length_take]; omega
  have hvs₂ : (values.drop 10).length = 4 := by rw [List.length_drop]; omega
  have hts₁ : (ts.take 9).length = 9 := by rw [List.length_take]; omega
  have hts₂ : (ts.drop 10).length = 4 := by rw [List.length_drop]; omega
  have hval : ∀ value, some value ∈ values.take 9 → value.length < 256 := by
    intro value hv
    have hle : 2 + value.length ≤ (encodeElements nasTags values).length :=
      length_le_of_some_mem hlen.symm (List.mem_of_mem_take hv)
    rw [nasconfigFile, List.length_append] at hfile
    omega
  have henc : encodeElements nasTags values = encodeElements tagsBefore (values.take 9) ++
      ((Tlv.mk nasDaTag v).bytes ++ encodeElements tagsBehind (values.drop 10)) := by
    conv_lhs => rw [hsplit]
    rw [nasTags, encodeElements_append (by rw [hvs₁]; rfl), encodeElements]
  rw [nasconfigFile, henc, holds_append, holds_append] at h
  rw [nasconfigFile, henc, List.length_append, List.length_append, List.length_append] at hfile
  obtain ⟨⟨hfirst, hrest⟩, -⟩ := h
  have hend : m (0 + (encodeElements tagsBefore (values.take 9)).length) ∉ tagsBefore := by
    rw [(holds_cons.mp (holds_append.mp hrest).1).1]
    show nasDaTag ∉ tagsBefore
    decide
  obtain ⟨us, hright, hus⟩ := decodeElements_append (by decide) (by rw [hvs₁]; rfl)
    (hts₁.trans hvs₁.symm) (by decide) hval hfirst hend
  have hlist : ElementsRight nasTags values ts (decodeElements m nasTags 0 ts) ↔
      ElementsRight (nasDaTag :: tagsBehind) (some v :: values.drop 10) (t :: ts.drop 10)
        (decodeElements m (nasDaTag :: tagsBehind) (0 + (encodeElements tagsBefore (values.take 9)).length)
          (t :: ts.drop 10)) := by
    conv_lhs => rw [hsplit, hts9]
    rw [nasTags, hus]
    exact elementsRight_append hright
  rw [hlist]
  exact oddElement_iff (by rw [hvs₂]; rfl) (hts₂.trans hvs₂.symm) (by omega) hrest

end Decode

/-- A structure in which nothing is set. -/
def emptyNasconfig : Nasconfig :=
  ⟨⟨0, []⟩, ⟨0, []⟩, ⟨0, []⟩, ⟨0, []⟩, ⟨0, []⟩, ⟨0, []⟩, ⟨0, []⟩, ⟨0, []⟩, ⟨0, []⟩, ⟨0, []⟩, ⟨0, []⟩, ⟨0, []⟩, ⟨0, []⟩,
    ⟨0, []⟩⟩

end Usim
end La12xx
