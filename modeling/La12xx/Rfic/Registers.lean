/-
# Two ways to the registers

The registers of the RF chip are read and written through the mailbox
(`__rf_read_regs`, `__rf_write_regs`) or by direct SPI (`__rf_read_dspi_regs`,
`__rf_write_dspi_regs`). The two ways are copies of one another that have drifted
apart: SPI reads one register over and over and never returns an error, and the
mailbox sends the first pair of an array and zeros for the rest. `reads_agree_iff` and
`writes_agree_iff` say what is left on which they agree.

The words of a command lie in memory that the host, which is little-endian, and the
E200 cores of the modem, which are big-endian, both look at; here they are as the host
sees them. The host turns every word around when it sends a command and when it
fetches the data, and `__rf_read_regs` turns what it has fetched around once more. In which
order the modem stores a value it has read is up to the modem (`ValOrder`).
-/
import La12xx.Lib.Endian
import La12xx.Lib.Loop

namespace La12xx
namespace Rfic

namespace Registers

open Endian

/-- The values of `MV_REG_ADDR_MASK` and `MV_REG_VAL_MASK`, and the number of elements of
`reg_data`, from the headers of the host interface. -/
structure RegIf where
  addrMask : BitVec 32
  valMask : BitVec 32
  capacity : ℕ

/-- The registers of the chip. -/
abbrev RegFile := BitVec 16 → BitVec 8

/-- `struct rf_reg_rw_data`, and `struct rif_write_reg_buf` with `data` for `val` -/
structure RegRw where
  addr : BitVec 32
  val : BitVec 32
deriving DecidableEq, Repr

/-- `u32 *buf` -/
abbrev Buf := ℕ → BitVec 32

/-- What the transports return: `rf_movandi_read_reg` or `rf_movandi_write_reg` for each
element, and `rf_send_swcmd`. -/
structure Transport where
  dspi : ℕ → ℤ
  mailbox : ℤ

/-! ### Words of a command -/

/-- `iowrite32be`: the word it leaves. -/
def iowrite32be (v : BitVec 32) : BitVec 32 := swab32 v

/-- `ioread32be` of a word -/
def ioread32be (w : BitVec 32) : BitVec 32 := swab32 w

/-- The copy of the data in `rf_send_swcmd`. -/
def rfSwcmdSendData (data : List RegRw) : List RegRw := data.map fun e => ⟨iowrite32be e.addr, iowrite32be e.val⟩

/-- `rf_swcmd_get_data` -/
def rfSwcmdGetData (remote : List RegRw) : List RegRw := remote.map fun e => ⟨ioread32be e.addr, ioread32be e.val⟩

/-! ### The modem -/

/-- How the handler stores a value it has read: as a word of the modem, or with its lowest
byte first. -/
inductive ValOrder where
  | big
  | little
deriving DecidableEq, Repr

/-- The word the host sees then. -/
def ValOrder.store : ValOrder → BitVec 32 → BitVec 32
  | .big, v => swab32 v
  | .little, v => v

/-- `RF_SW_CMD_READ_REG`: `val` is filled in. -/
def handleRead (order : ValOrder) (regs : RegFile) (remote : List RegRw) : List RegRw :=
  remote.map fun e => { e with val := order.store ((regs ((swab32 e.addr).setWidth 16)).setWidth 32) }

/-- `RF_SW_CMD_WRITE_REG` -/
def handleWrite (regs : RegFile) (remote : List RegRw) : RegFile :=
  remote.foldl (fun regs e => Function.update regs ((swab32 e.addr).setWidth 16) ((swab32 e.val).setWidth 8)) regs

/-! ### Reading -/

section Code

variable (I : RegIf) (order : ValOrder) (regs : RegFile) (t : Transport)

/-- `__rf_read_regs`; `none` is an access behind `reg_data`. -/
def rfReadRegs (addr : BitVec 16) (count : ℕ) (buf : Buf) : Option (ℤ × Buf) :=
  if I.capacity < count then none
  else
    let data := (List.range count).map fun i : ℕ => RegRw.mk (addr.setWidth 32 + BitVec.ofNat 32 i) 0
    if t.mailbox ≠ 0 then some (t.mailbox, buf)
    else
      let data := rfSwcmdGetData (handleRead order regs (rfSwcmdSendData data))
      -- each `val` is stored in its own place by `iowrite32be`
      let data := data.map fun e => { e with val := iowrite32be e.val }
      some (0, loop count (fun i buf => Function.update buf i ((data.getD i ⟨0, 0⟩).val &&& I.valMask)) buf)

/-- `*(uint8_t *)(&buf[i]) = b`, the lowest byte -/
def setLow (w : BitVec 32) (b : BitVec 8) : BitVec 32 := w.extractLsb' 8 24 ++ b

/-- The loop of `__rf_read_dspi_regs` from `i` on; `addr` is not advanced. -/
def readDspiLoop (addr : BitVec 16) : ℕ → ℕ → Buf → Buf
  | 0, _, buf => buf
  | n + 1, i, buf =>
    if t.dspi i ≠ 0 then buf
    else readDspiLoop addr n (i + 1) (Function.update buf i (setLow (buf i) (regs addr)))

/-- `__rf_read_dspi_regs` -/
def rfReadDspiRegs (addr : BitVec 16) (count : ℕ) (buf : Buf) : ℤ × Buf := (0, readDspiLoop regs t addr count 0 buf)

/-! ### Writing -/

/-- `__rf_write_regs`: the loop stores the first pair at 0 again and again, in a command that
was cleared. -/
def rfWriteRegs (pairs : List RegRw) : Option (ℤ × RegFile) :=
  if I.capacity < pairs.length then none
  else
    let first := pairs.headD ⟨0, 0⟩
    let data := loop pairs.length
      (fun _ data => data.set 0 ⟨first.addr &&& I.addrMask, first.val &&& I.valMask⟩)
      (List.replicate pairs.length ⟨0, 0⟩)
    if t.mailbox ≠ 0 then some (t.mailbox, regs)
    else some (0, handleWrite regs (rfSwcmdSendData data))

/-- The loop of `__rf_write_dspi_regs` from `i` on. -/
def writeDspiLoop : ℕ → List RegRw → RegFile → RegFile
  | _, [], regs => regs
  | i, p :: pairs, regs =>
    if t.dspi i ≠ 0 then regs
    else writeDspiLoop (i + 1) pairs (Function.update regs (p.addr.setWidth 16) (p.val.setWidth 8))

/-- `__rf_write_dspi_regs` -/
def rfWriteDspiRegs (pairs : List RegRw) : ℤ × RegFile := (0, writeDspiLoop t 0 pairs regs)

end Code

/-! ### Agreement -/

section Agreement

variable (I : RegIf) (order : ValOrder) (regs : RegFile) (t : Transport)

/-- Both ways succeed with the same if the transports do, and each reports an error of its own. -/
structure Agree {α : Type} (count : ℕ) (mailbox : Option (ℤ × α)) (dspi : ℤ × α) (same : α → α → Prop) : Prop where
  same : t.mailbox = 0 → (∀ i < count, t.dspi i = 0) → ∃ a, mailbox = some (0, a) ∧ dspi.1 = 0 ∧ same a dspi.2
  mailboxReports : t.mailbox ≠ 0 → ∃ r, mailbox = some r ∧ r.1 ≠ 0
  dspiReports : (∃ i < count, t.dspi i ≠ 0) → dspi.1 ≠ 0

/-- What a read of the register `i` places after `addr` is to give. -/
def maskedReg (addr : BitVec 16) (i : ℕ) : BitVec 32 := (regs (addr + BitVec.ofNat 16 i)).setWidth 32 &&& I.valMask

/-- Reading `count` registers from `addr` on, as `rf_read_regs` masks it: both ways give
these registers, masked. -/
def ReadsAgree (addr : BitVec 32) (count : ℕ) (buf : Buf) : Prop :=
  Agree t count (rfReadRegs I order regs t ((addr &&& I.addrMask).setWidth 16) count buf)
    (rfReadDspiRegs regs t ((addr &&& I.addrMask).setWidth 16) count buf) fun b b' =>
      ∀ i < count, b i = maskedReg I regs ((addr &&& I.addrMask).setWidth 16) i ∧ b i = b' i

/-- Writing an array of pairs. -/
def WritesAgree (pairs : List RegRw) : Prop :=
  Agree t pairs.length (rfWriteRegs I regs t pairs) (rfWriteDspiRegs regs t pairs) Eq

/-- What both kinds of access need: no element fails on SPI, and the array fits the command. -/
def Carried (count : ℕ) : Prop := count ≤ I.capacity ∧ ∀ i < count, t.dspi i = 0

variable {I t}

/-- As SPI returns 0 in any case, its transport may not fail; what the mailbox returns is
known where it is called. -/
theorem agree_iff {α : Type} {count : ℕ} {m : Option (ℤ × α)} {a d : α} {same : α → α → Prop}
    (hover : I.capacity < count → m = none) (hfail : count ≤ I.capacity → t.mailbox ≠ 0 → ∃ b, m = some (t.mailbox, b))
    (hok : count ≤ I.capacity → t.mailbox = 0 → m = some (0, a)) :
    Agree t count m (0, d) same ↔ Carried I t count ∧ (t.mailbox = 0 → same a d) := by
  constructor
  · intro h
    have hclean : ∀ i < count, t.dspi i = 0 := by
      intro i hi
      by_contra hne
      exact h.dspiReports ⟨i, hi, hne⟩ rfl
    have hsome : m ≠ none := by
      by_cases hm : t.mailbox = 0
      · obtain ⟨b, hb, -⟩ := h.same hm hclean
        exact hb ▸ Option.some_ne_none _
      · obtain ⟨r, hr, -⟩ := h.mailboxReports hm
        exact hr ▸ Option.some_ne_none _
    have hc : count ≤ I.capacity := not_lt.mp fun hlt => hsome (hover hlt)
    refine ⟨⟨hc, hclean⟩, fun hm => ?_⟩
    obtain ⟨b, hb, -, hsame⟩ := h.same hm hclean
    obtain rfl : a = b := congrArg Prod.snd (Option.some.inj ((hok hc hm).symm.trans hb))
    exact hsame
  · rintro ⟨⟨hc, hclean⟩, hsame⟩
    refine ⟨fun hm _ => ⟨a, hok hc hm, rfl, hsame hm⟩, fun hm => ?_, fun hne => ?_⟩
    · obtain ⟨b, hb⟩ := hfail hc hm
      exact ⟨_, hb, hm⟩
    · obtain ⟨i, hi, hne⟩ := hne
      exact absurd (hclean i hi) hne

end Agreement

/-! ### What the ways do without errors -/

section Clean

variable {I : RegIf} {order : ValOrder} {regs : RegFile} {t : Transport}

theorem readDspiLoop_clean (addr : BitVec 16) (n : ℕ) : ∀ {i : ℕ} (buf : Buf), (∀ j, i ≤ j → j < i + n → t.dspi j = 0) →
    ∀ j, readDspiLoop regs t addr n i buf j =
      if i ≤ j ∧ j < i + n then setLow (buf j) (regs addr) else buf j := by
  induction n with
  | zero =>
    intro i buf _ j
    rw [readDspiLoop, if_neg (by omega)]
  | succ n ih =>
    intro i buf h j
    have hi : t.dspi i = 0 := h i le_rfl (by omega)
    rw [readDspiLoop, if_neg (not_not_intro hi), ih _ fun j hj hj' => h j (by omega) (by omega)]
    by_cases hj : j = i
    · subst hj
      rw [Function.update_self, if_neg (by omega), if_pos (by omega)]
    · rw [Function.update_of_ne hj]
      exact if_congr (by omega) rfl rfl

theorem addr_add (addr : BitVec 16) (i : ℕ) :
    (addr.setWidth 32 + BitVec.ofNat 32 i).setWidth 16 = addr + BitVec.ofNat 16 i := by
  rw [BitVec.setWidth_add _ _ (by decide), BitVec.setWidth_setWidth_of_le _ (by decide), BitVec.setWidth_eq,
    BitVec.setWidth_ofNat_of_le (by decide)]

/-- What the mailbox reads: the modem's word is turned around when it is fetched and once more. -/
theorem rfReadRegs_clean {addr : BitVec 16} {count : ℕ} {buf : Buf} (hc : count ≤ I.capacity) (hm : t.mailbox = 0) :
    rfReadRegs I order regs t addr count buf = some (0, fun i =>
      if i < count then order.store ((regs (addr + BitVec.ofNat 16 i)).setWidth 32) &&& I.valMask else buf i) := by
  rw [rfReadRegs, if_neg (not_lt.mpr hc)]
  refine (if_neg (not_not_intro hm)).trans (congrArg some (Prod.ext rfl (funext fun i => ?_)))
  show loop count _ buf i = if i < count then _ else _
  rw [loop_update]
  by_cases hi : i < count
  · rw [if_pos hi, if_pos hi, List.getD_eq_getElem _ _ (by simpa [rfSwcmdGetData, handleRead, rfSwcmdSendData] using hi)]
    simp only [rfSwcmdGetData, handleRead, rfSwcmdSendData, iowrite32be, ioread32be, List.getElem_map,
      List.getElem_range, swab32_swab32, addr_add]
  · rw [if_neg hi, if_neg hi]

/-- A byte, masked as a word. -/
theorem byte_and (b : BitVec 8) (mask : BitVec 32) :
    b.setWidth 32 &&& mask = (0 : BitVec 24) ++ (b &&& mask.setWidth 8) := by
  apply BitVec.eq_of_getLsbD_eq
  intro i hi
  simp only [BitVec.getLsbD_and, BitVec.getLsbD_setWidth, BitVec.getLsbD_append]
  by_cases h8 : i < 8
  · simp [hi, h8]
  · simp [h8, BitVec.getLsbD_of_ge b i (not_lt.mp h8)]

/-- A byte turned around is the highest. -/
theorem swab32_byte_and (b : BitVec 8) (mask : BitVec 32) :
    swab32 (b.setWidth 32) &&& mask = (b &&& mask.extractLsb' 24 8) ++ (0 : BitVec 24) := by
  apply BitVec.eq_of_getLsbD_eq
  intro i hi
  simp only [swab32, BitVec.getLsbD_and, BitVec.getLsbD_append, BitVec.getLsbD_extractLsb', BitVec.getLsbD_setWidth]
  by_cases h24 : i < 24
  · -- the three bytes above `b` are zero
    have hzero : ∀ k, 8 ≤ k → b.getLsbD k = false := fun k hk => BitVec.getLsbD_of_ge b k hk
    by_cases h8 : i < 8
    · simp [h24, h8, hzero (24 + i) (by omega)]
    · by_cases h16 : i < 16
      · simp [h24, h8, show i - 8 < 8 by omega, hzero (16 + (i - 8)) (by omega)]
      · simp [h24, h8, show ¬ i - 8 < 8 by omega, show i - 8 - 8 < 8 by omega]
  · obtain ⟨k, rfl⟩ := Nat.exists_eq_add_of_le (not_lt.mp h24)
    have hk : k < 8 := by omega
    simp [hk, show ¬ 24 + k < 8 by omega, show ¬ 24 + k - 8 < 8 by omega, show ¬ 24 + k - 8 - 8 < 8 by omega,
      show 24 + k - 8 - 8 - 8 = k by omega, show k < 32 by omega]

/-- The lowest byte of a word that is otherwise zero. -/
theorem and_eq_setLow_iff (b c : BitVec 8) (mask w : BitVec 32) :
    b.setWidth 32 &&& mask = setLow w c ↔ w.extractLsb' 8 24 = 0 ∧ b &&& mask.setWidth 8 = c := by
  rw [byte_and, setLow]
  constructor
  · intro h
    refine ⟨?_, ?_⟩
    · have h24 := congrArg (BitVec.extractLsb' 8 24) h
      rw [BitVec.extractLsb'_append_eq_left, BitVec.extractLsb'_append_eq_left] at h24
      exact h24.symm
    · have h8 := congrArg (BitVec.setWidth 8) h
      rwa [BitVec.setWidth_append_eq_right, BitVec.setWidth_append_eq_right] at h8
  · rintro ⟨h24, h8⟩
    rw [h24, h8]

/-- A highest byte is a lowest one only if both are zero. -/
theorem append_zero_eq_iff (x y : BitVec 8) : x ++ (0 : BitVec 24) = (0 : BitVec 24) ++ y ↔ y = 0 ∧ x = 0 := by
  constructor
  · intro h
    have hnat : x.toNat * 2 ^ 24 = y.toNat := by
      have h' : (x ++ (0 : BitVec 24)).toNat = ((0 : BitVec 24) ++ y).toNat := congrArg BitVec.toNat h
      rw [BitVec.toNat_append, BitVec.toNat_append] at h'
      simpa [Nat.shiftLeft_eq] using h'
    have hy : y.toNat < 2 ^ 8 := y.isLt
    have hx0 : x.toNat = 0 := by omega
    have hy0 : y.toNat = 0 := by omega
    exact ⟨BitVec.eq_of_toNat_eq hy0, BitVec.eq_of_toNat_eq hx0⟩
  · rintro ⟨rfl, rfl⟩
    rfl

/-- Stored as a word of the modem, a register comes out right only if nothing of it does. -/
theorem store_and_iff (order : ValOrder) (b : BitVec 8) (mask : BitVec 32) :
    order.store (b.setWidth 32) &&& mask = b.setWidth 32 &&& mask ↔
      (order = .big → b &&& mask.setWidth 8 = 0 ∧ b &&& mask.extractLsb' 24 8 = 0) := by
  cases order with
  | little => exact iff_of_true rfl nofun
  | big =>
    rw [ValOrder.store, swab32_byte_and, byte_and, forall_prop_of_true rfl]
    exact append_zero_eq_iff _ _

/-- **When the two ways of reading agree**: no element fails on SPI, the command has room, and
(if it is not refused) the buffer held nothing above the lowest bytes and every register,
masked, holds what the first one holds; and if the modem stores the values as its own
words, that is zero, and so is what the highest byte of the mask lets through. -/
theorem reads_agree_iff (I : RegIf) (order : ValOrder) (regs : RegFile) (t : Transport) (addr : BitVec 32) (count : ℕ)
    (buf : Buf) :
    ReadsAgree I order regs t addr count buf ↔ Carried I t count ∧ (t.mailbox = 0 → ∀ i < count,
      (buf i).extractLsb' 8 24 = 0 ∧
        regs ((addr &&& I.addrMask).setWidth 16 + BitVec.ofNat 16 i) &&& I.valMask.setWidth 8 =
          regs ((addr &&& I.addrMask).setWidth 16) ∧
        (order = .big →
          regs ((addr &&& I.addrMask).setWidth 16 + BitVec.ofNat 16 i) &&& I.valMask.setWidth 8 = 0 ∧
          regs ((addr &&& I.addrMask).setWidth 16 + BitVec.ofNat 16 i) &&& I.valMask.extractLsb' 24 8 = 0)) := by
  rw [ReadsAgree, rfReadDspiRegs]
  generalize (addr &&& I.addrMask).setWidth 16 = a
  have hover : I.capacity < count → rfReadRegs I order regs t a count buf = none := fun hlt => if_pos hlt
  have hfail : count ≤ I.capacity → t.mailbox ≠ 0 → ∃ b, rfReadRegs I order regs t a count buf = some (t.mailbox, b) :=
    fun hc hm => ⟨buf, (if_neg (not_lt.mpr hc)).trans (if_pos hm)⟩
  rw [agree_iff hover hfail rfReadRegs_clean]
  refine and_congr_right fun ⟨_, hclean⟩ => forall_congr' fun _ => forall₂_congr fun i hi => ?_
  have hdspi : readDspiLoop regs t a count 0 buf i = if 0 ≤ i ∧ i < 0 + count then setLow (buf i) (regs a) else buf i :=
    readDspiLoop_clean a count buf (fun j _ hj => hclean j (by omega)) i
  show (if i < count then _ else _) = _ ∧ (if i < count then _ else _) = _ ↔ _
  rw [if_pos hi, hdspi, if_pos (by omega), maskedReg, store_and_iff]
  constructor
  · rintro ⟨horder, hsame⟩
    rw [(store_and_iff order _ _).mpr horder] at hsame
    obtain ⟨hbuf, hreg⟩ := (and_eq_setLow_iff _ _ _ _).mp hsame
    exact ⟨hbuf, hreg, horder⟩
  · rintro ⟨hbuf, hreg, horder⟩
    refine ⟨horder, ?_⟩
    rw [(store_and_iff order _ _).mpr horder]
    exact (and_eq_setLow_iff _ _ _ _).mpr ⟨hbuf, hreg⟩

/-- The data of the last pair for a register. -/
def lastTo (pairs : List RegRw) (r : BitVec 16) : Option (BitVec 8) :=
  (pairs.reverse.find? fun p => p.addr.setWidth 16 = r).map fun p => p.val.setWidth 8

/-- The pairs of an array are written one after the other. -/
def writeAll (regs : RegFile) (pairs : List RegRw) : RegFile :=
  pairs.foldl (fun regs p => Function.update regs (p.addr.setWidth 16) (p.val.setWidth 8)) regs

/-- The modem writes the pairs it is sent. -/
theorem handleWrite_send (regs : RegFile) (pairs : List RegRw) :
    handleWrite regs (rfSwcmdSendData pairs) = writeAll regs pairs := by
  simp only [handleWrite, rfSwcmdSendData, List.foldl_map, iowrite32be, swab32_swab32]
  rfl

/-- What the array leaves in a register. -/
theorem writeAll_apply (pairs : List RegRw) : ∀ (regs : RegFile) (r : BitVec 16),
    writeAll regs pairs r = (lastTo pairs r).getD (regs r) := by
  induction pairs with
  | nil => exact fun _ _ => rfl
  | cons p pairs ih =>
    intro regs r
    show writeAll (Function.update regs _ _) pairs r = _
    rw [ih, lastTo, lastTo, List.reverse_cons, List.find?_append, List.find?_singleton]
    cases pairs.reverse.find? fun p => p.addr.setWidth 16 = r with
    | some q => rfl
    | none =>
      by_cases hr : p.addr.setWidth 16 = r
      · subst hr
        simp
      · simp [hr, Function.update_of_ne (Ne.symm hr)]

theorem writeDspiLoop_clean (pairs : List RegRw) : ∀ {i : ℕ} (regs : RegFile),
    (∀ j, i ≤ j → j < i + pairs.length → t.dspi j = 0) → writeDspiLoop t i pairs regs = writeAll regs pairs := by
  induction pairs with
  | nil => exact fun _ _ => rfl
  | cons p pairs ih =>
    intro i regs h
    rw [List.length_cons] at h
    rw [writeDspiLoop, if_neg (not_not_intro (h i le_rfl (by omega)))]
    exact ih _ fun j hj hj' => h j (by omega) (by omega)

/-- The command of `__rf_write_regs`: the first pair, masked, and zeros. -/
def sentPairs (I : RegIf) : List RegRw → List RegRw
  | [] => []
  | p :: pairs => ⟨p.addr &&& I.addrMask, p.val &&& I.valMask⟩ :: List.replicate pairs.length ⟨0, 0⟩

theorem rfWriteRegs_clean {pairs : List RegRw} (hc : pairs.length ≤ I.capacity) (hm : t.mailbox = 0) :
    rfWriteRegs I regs t pairs = some (0, writeAll regs (sentPairs I pairs)) := by
  have hdata : ∀ n (x : RegRw), loop (n + 1) (fun _ data => data.set 0 x) (List.replicate (n + 1) ⟨0, 0⟩) =
      x :: List.replicate n ⟨0, 0⟩ := by
    intro n x
    let I : ℕ → List RegRw → Prop := fun m data => ∃ y, data = y :: List.replicate n ⟨0, 0⟩ ∧ (0 < m → y = x)
    have hstep : ∀ m < n + 1, ∀ data, I m data → I (m + 1) (data.set 0 x) := by
      rintro m - _ ⟨y, rfl, -⟩
      exact ⟨x, rfl, fun _ => rfl⟩
    have hinv : I (n + 1) (loop (n + 1) (fun _ data => data.set 0 x) (List.replicate (n + 1) ⟨0, 0⟩)) :=
      loop_inv ⟨_, rfl, nofun⟩ hstep
    obtain ⟨y, hy, hyx⟩ := hinv
    rw [hy, hyx n.succ_pos]
  rw [rfWriteRegs, if_neg (not_lt.mpr hc)]
  refine (if_neg (not_not_intro hm)).trans ?_
  rw [handleWrite_send]
  cases pairs with
  | nil => rfl
  | cons p pairs => exact congrArg (fun d => some (0, writeAll regs d)) (hdata pairs.length _)

/-- The zeros go to register 0. -/
theorem writeAll_replicate (n : ℕ) (regs : RegFile) (r : BitVec 16) :
    writeAll regs (List.replicate n ⟨0, 0⟩) r = if n ≠ 0 ∧ r = 0 then 0 else regs r := by
  induction n generalizing regs with
  | zero => exact (if_neg fun h => h.1 rfl).symm
  | succ n ih =>
    show writeAll (Function.update regs 0 0) _ r = _
    rw [ih]
    by_cases hr : r = 0
    · subst hr
      rw [Function.update_self, ite_self, if_pos ⟨n.succ_ne_zero, rfl⟩]
    · rw [Function.update_of_ne hr, if_neg fun h => hr h.2, if_neg fun h => hr h.2]

/-- **When the two ways of writing agree**: no element fails on SPI, the command has room, and
(if it is not refused) in every register the array leaves what the command does: zero in
register 0 if there are two pairs or more, else the data of the first pair where its address
leads, both masked, else what was there. -/
theorem writes_agree_iff (I : RegIf) (regs : RegFile) (t : Transport) (pairs : List RegRw) :
    WritesAgree I regs t pairs ↔ Carried I t pairs.length ∧ (t.mailbox = 0 → ∀ p ps, pairs = p :: ps → ∀ r,
      (lastTo pairs r).getD (regs r) =
        if ps ≠ [] ∧ r = 0 then 0
        else if r = (p.addr &&& I.addrMask).setWidth 16 then (p.val &&& I.valMask).setWidth 8
        else regs r) := by
  have hover : I.capacity < pairs.length → rfWriteRegs I regs t pairs = none := fun hlt => if_pos hlt
  have hfail : pairs.length ≤ I.capacity → t.mailbox ≠ 0 → ∃ b, rfWriteRegs I regs t pairs = some (t.mailbox, b) :=
    fun hc hm => ⟨regs, (if_neg (not_lt.mpr hc)).trans (if_pos hm)⟩
  rw [WritesAgree, rfWriteDspiRegs, agree_iff hover hfail rfWriteRegs_clean]
  refine and_congr_right fun ⟨_, hclean⟩ => forall_congr' fun _ => ?_
  rw [writeDspiLoop_clean pairs regs fun j _ hj => hclean j (by omega)]
  cases pairs with
  | nil => exact iff_of_true rfl nofun
  | cons p ps =>
    have hsent : ∀ r, writeAll regs (sentPairs I (p :: ps)) r =
        if ps ≠ [] ∧ r = 0 then 0
        else if r = (p.addr &&& I.addrMask).setWidth 16 then (p.val &&& I.valMask).setWidth 8
        else regs r := by
      intro r
      show writeAll (Function.update regs _ _) (List.replicate ps.length ⟨0, 0⟩) r = _
      rw [writeAll_replicate, Function.update_apply]
      exact if_congr (and_congr_left' (not_congr List.length_eq_zero_iff)) rfl rfl
    constructor
    · rintro h _ _ ⟨⟩ r
      rw [← writeAll_apply, ← hsent, h]
    · intro h
      funext r
      rw [hsent, writeAll_apply, h p ps rfl]

/-- **The two ways to the registers**: on which reads and on which writes they agree. -/
theorem registers_agree_iff (I : RegIf) (order : ValOrder) (regs : RegFile) (t : Transport) :
    (∀ addr count buf, ReadsAgree I order regs t addr count buf ↔ Carried I t count ∧ (t.mailbox = 0 → ∀ i < count,
      (buf i).extractLsb' 8 24 = 0 ∧
        regs ((addr &&& I.addrMask).setWidth 16 + BitVec.ofNat 16 i) &&& I.valMask.setWidth 8 =
          regs ((addr &&& I.addrMask).setWidth 16) ∧
        (order = .big →
          regs ((addr &&& I.addrMask).setWidth 16 + BitVec.ofNat 16 i) &&& I.valMask.setWidth 8 = 0 ∧
          regs ((addr &&& I.addrMask).setWidth 16 + BitVec.ofNat 16 i) &&& I.valMask.extractLsb' 24 8 = 0))) ∧
    ∀ pairs, WritesAgree I regs t pairs ↔ Carried I t pairs.length ∧ (t.mailbox = 0 → ∀ p ps, pairs = p :: ps → ∀ r,
      (lastTo pairs r).getD (regs r) =
        if ps ≠ [] ∧ r = 0 then 0
        else if r = (p.addr &&& I.addrMask).setWidth 16 then (p.val &&& I.valMask).setWidth 8
        else regs r) :=
  ⟨reads_agree_iff I order regs t, writes_agree_iff I regs t⟩

/-- Masks of 16 and 8 bits, and room for 64 elements. -/
def sampleIf : RegIf := ⟨0xffff, 0xff, 64⟩

/-- Two registers read, the second of which holds something else; one register read that the
modem stores as a word of its own; two registers written; and an element that fails. -/
theorem ways_differ :
    ¬ReadsAgree sampleIf .little (fun r => if r = 0x11 then 7 else 0) ⟨fun _ => 0, 0⟩ 0x10 2 (fun _ => 0) ∧
      ¬ReadsAgree sampleIf .big (fun _ => 7) ⟨fun _ => 0, 0⟩ 0x10 1 (fun _ => 0) ∧
      ¬WritesAgree sampleIf (fun _ => 0) ⟨fun _ => 0, 0⟩ [⟨0x10, 1⟩, ⟨0x11, 2⟩] ∧
      ∀ order, ¬ReadsAgree sampleIf order (fun _ => 0) ⟨fun _ => -1, 0⟩ 0x10 1 fun _ => 0 := by
  refine ⟨fun h => ?_, fun h => ?_, fun h => ?_, fun order h => ?_⟩
  · obtain ⟨b, hb, -, hsame⟩ := h.same rfl fun _ _ => rfl
    obtain rfl := congrArg Prod.snd (Option.some.inj hb)
    exact absurd (hsame 1 (by decide)).2 (by decide)
  · obtain ⟨b, hb, -, hsame⟩ := h.same rfl fun _ _ => rfl
    obtain rfl := congrArg Prod.snd (Option.some.inj hb)
    exact absurd (hsame 0 (by decide)).1 (by decide)
  · obtain ⟨regs, hregs, -, hsame⟩ := h.same rfl fun _ _ => rfl
    obtain rfl := congrArg Prod.snd (Option.some.inj hregs)
    exact absurd (congrFun hsame 0x11) (by decide)
  · exact h.dspiReports ⟨0, by decide, by decide⟩ rfl

end Clean

end Registers
end Rfic
end La12xx
