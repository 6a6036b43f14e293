/-
# Sections the CPU copies

The sections of an image that are not sent to the core may be copied by the
CPU: to the overlay region of the host, to the PEBM, or to the FECA memory. A
copy is safe if it takes the section's own bytes from the file and stays
inside its region.

What can go wrong differs by region. The end of a section for the host overlay
is compared with the end of the region in 32 bits, the ends of the others are
not looked at. A FECA section is taken from `section_ptr`, which is where an
earlier section lies. And the bounce buffer may have been over the image
before the section's turn comes. Nothing else can (`copies_safe_iff`).
-/
import La12xx.Vspa.Honest

namespace La12xx
namespace Vspa

open ByteMem

/-! ### Copies -/

/-- `GUL_MMAP_PEBM_SIZE` -/
def gulMmapPebmSize : ℕ := 0x200000

/-- `GUL_MEM_REGION_FECA_MEM_SIZE` -/
def gulMemRegionFecaMemSize : ℕ := 0x2000000

/-- The size of a region. -/
def Overlay.len : Overlay → ℕ
  | .host => gulVspaOverlaySize.toNat
  | .pebm => gulMmapPebmSize
  | .feca => gulMemRegionFecaMemSize

/-- A `memcpy` of `size` bytes to offset `dst` of a region. -/
structure Copy where
  region : Overlay
  dst : BitVec 32
  src : Option ℤ
  size : BitVec 32

/-- The copy made for a section, if one is made. -/
def Action.copy : Action → Option Copy
  | .copied region dst src size => some ⟨region, dst, src, size⟩
  | _ => none

/-- The bytes of a copy: none come from a null pointer. -/
def Copy.taken (c : Copy) (m : Mem) : Option (List Byte) :=
  match c.src with
  | some p => some (bytes m p c.size.toNat)
  | none => if c.size.toNat = 0 then some [] else none

/-- The copy takes the `n` bytes at `off` of the file `F` of `fwSize` bytes,
and stays inside its region. -/
structure Copy.Safe (F m : Mem) (fwSize : ℕ) (off : ℤ) (n : ℕ) (c : Copy) : Prop where
  own : c.taken m = some (bytes F off n)
  inFile : n = 0 ∨ off + n ≤ fwSize
  inside : c.size.toNat = 0 ∨ c.dst.toNat + c.size.toNat ≤ c.region.len

theorem Copy.safe_iff {F m : Mem} {fwSize : ℕ} {off : ℤ} {n : ℕ} {c : Copy} :
    c.Safe F m fwSize off n ↔ c.taken m = some (bytes F off n) ∧ (n = 0 ∨ off + n ≤ fwSize) ∧
      (c.size.toNat = 0 ∨ c.dst.toNat + c.size.toNat ≤ c.region.len) :=
  ⟨fun h => ⟨h.own, h.inFile, h.inside⟩, fun h => ⟨h.1, h.2.1, h.2.2⟩⟩

instance (F m : Mem) (fwSize : ℕ) (off : ℤ) (n : ℕ) (c : Copy) : Decidable (c.Safe F m fwSize off n) :=
  decidable_of_iff _ Copy.safe_iff.symm

/-! ### The sections of a load -/

section Load

variable (V : VspaDev) (info : VspaSecInfo) (dma : ℕ → DmaResp) (shoff : BitVec 32) (str : ℤ) (fwSize : ℕ)

/-- The visits of `loadLoop`, each with the state it finds. -/
def loadSteps : ℕ → ℕ → LoadState → List (LoadState × Visit)
  | 0, _, _ => []
  | k + 1, secNum, st =>
    match loadSection V info dma shoff str fwSize st secNum with
    | (visit, st', .go) => (st, visit) :: loadSteps k (secNum + 1) st'
    | (visit, _, .err _) => [(st, visit)]
    | (visit, _, .fault) => [(st, visit)]

theorem loadSteps_visits : ∀ (k secNum : ℕ) (st : LoadState),
    (loadSteps V info dma shoff str fwSize k secNum st).map Prod.snd =
      (loadLoop V info dma shoff str fwSize k secNum st).visits
  | 0, _, _ => rfl
  | k + 1, secNum, st => by
    obtain ⟨⟨v, st', next⟩, hround⟩ : ∃ out, loadSection V info dma shoff str fwSize st secNum = out := ⟨_, rfl⟩
    rw [loadSteps, loadLoop, hround]
    cases next with
    | go => exact congrArg (v :: ·) (loadSteps_visits k (secNum + 1) st')
    | err ret => rfl
    | fault => rfl

/-- The visits of a load: every section is met as those before it leave the
image, up to and including the first that ends the load. -/
theorem forall_loadSteps_iff (F : Mem) {P : LoadState → Visit → Prop} : ∀ k secNum : ℕ,
    (∀ p ∈ loadSteps V info dma shoff str fwSize k secNum (arrival V info shoff str F secNum), P p.1 p.2) ↔
      ∀ i, secNum ≤ i → i < secNum + k →
        (∀ j, secNum ≤ j → j < i → ¬ Loud V info dma shoff str fwSize (arrival V info shoff str F j) j) →
        P (arrival V info shoff str F i)
          (loadSection V info dma shoff str fwSize (arrival V info shoff str F i) i).1
  | 0, secNum => by
    refine iff_of_true (fun p hp => absurd hp List.not_mem_nil) fun i hi hi' => ?_
    omega
  | k + 1, secNum => by
    obtain ⟨⟨v, st', next⟩, hround⟩ :
      ∃ out, loadSection V info dma shoff str fwSize (arrival V info shoff str F secNum) secNum = out := ⟨_, rfl⟩
    have hgo := next_eq_go_iff V info dma shoff str fwSize hround
    -- the sections from `secNum` on are `secNum` and, if it does not end the load, those after it
    have hsplit : (∀ i, secNum ≤ i → i < secNum + (k + 1) →
        (∀ j, secNum ≤ j → j < i → ¬ Loud V info dma shoff str fwSize (arrival V info shoff str F j) j) →
        P (arrival V info shoff str F i)
          (loadSection V info dma shoff str fwSize (arrival V info shoff str F i) i).1) ↔
        P (arrival V info shoff str F secNum) v ∧ (next = .go → ∀ i, secNum + 1 ≤ i → i < secNum + 1 + k →
          (∀ j, secNum + 1 ≤ j → j < i → ¬ Loud V info dma shoff str fwSize (arrival V info shoff str F j) j) →
          P (arrival V info shoff str F i)
            (loadSection V info dma shoff str fwSize (arrival V info shoff str F i) i).1) := by
      constructor
      · intro h
        refine ⟨?_, fun hnext i hi hi' hquiet => h i (by omega) (by omega) fun j hj hj' => ?_⟩
        · have hfirst := h secNum le_rfl (by omega) fun j hj hj' => by omega
          rwa [hround] at hfirst
        · rcases hj.eq_or_lt with rfl | hlt
          · exact hgo.mp hnext
          · exact hquiet j hlt hj'
      · rintro ⟨hfirst, hrest⟩ i hi hi' hquiet
        rcases hi.eq_or_lt with rfl | hlt
        · rwa [hround]
        · exact hrest (hgo.mpr (hquiet secNum le_rfl hlt)) i hlt (by omega)
            fun j hj hj' => hquiet j (by omega) hj'
    rw [hsplit, loadSteps, hround]
    cases next with
    | go =>
      rw [arrival_succ V info dma shoff str fwSize hround]
      simp only [List.forall_mem_cons, forall_const]
      rw [forall_loadSteps_iff F k (secNum + 1)]
    | err ret => simp
    | fault => simp

/-! ### One section -/

/-- Where a section that is not sent is taken from. -/
def copySource (st : LoadState) (hdr : SectionHeader) : Option ℤ :=
  if hdr.secInfo ≠ 0 then some (hdr.secOffset.toNat : ℤ) else st.sectionPtr

/-- The region a section that is not sent is copied to. -/
def copyTarget (hdr : SectionHeader) : Option Overlay :=
  if hdr.secInfo ≠ 0 then
    if V.overlayBaseAddr ≤ hdr.secInfo ∧
        hdr.secInfo + align hdr.secSize V.axiAlign < V.overlayBaseAddr + gulVspaOverlaySize then some .host
    else if hdr.secInfo &&& gulPebmOverlayBase = gulPebmOverlayBase then some .pebm
    else none
  else if hdr.secAddr &&& gulFecaBaseAddr = gulFecaBaseAddr then some .feca
  else none

/-- The offset in the region. -/
def copyOffset (hdr : SectionHeader) : Overlay → BitVec 32
  | .host => hdr.secInfo - V.overlayBaseAddr
  | .pebm => hdr.secInfo - gulPebmBaseAddr
  | .feca => hdr.secAddr - gulFecaBaseAddr

/-- The copy made for a section that is not sent. -/
theorem overlaySection_copy (st : LoadState) (hdr : SectionHeader) :
    (overlaySection V st hdr).1.copy = (copyTarget V hdr).map fun region =>
      ⟨region, copyOffset V hdr region, copySource st hdr, align hdr.secSize V.axiAlign⟩ := by
  dsimp only [overlaySection, copyTarget, copySource]
  split_ifs <;> rfl

theorem dmaSection_copy {st st' : LoadState} {secNum : ℕ} {hdr : SectionHeader} {action : Action} {next : Next}
    (h : Outcome V info dma fwSize st secNum hdr (action, st', next)) : action.copy = none := by
  cases h <;> rfl

/-- The section ends where the region does or before, as numbers: for the host
overlay neither end of the comparison has wrapped, or both have. -/
def CopyFits (hdr : SectionHeader) : Overlay → Prop
  | .host => hdr.secInfo.toNat + (align hdr.secSize V.axiAlign).toNat < 2 ^ 32 ∨
      2 ^ 32 ≤ V.overlayBaseAddr.toNat + Overlay.host.len
  | .pebm => align hdr.secSize V.axiAlign = 0 ∨
      hdr.secInfo.toNat + (align hdr.secSize V.axiAlign).toNat ≤ gulPebmBaseAddr.toNat + Overlay.pebm.len
  | .feca => align hdr.secSize V.axiAlign = 0 ∨
      hdr.secAddr.toNat + (align hdr.secSize V.axiAlign).toNat ≤ gulFecaBaseAddr.toNat + Overlay.feca.len

/-- An address with all bits of `c` is not below `c`. -/
theorem le_of_and_eq {x c : BitVec 32} (h : x &&& c = c) : c.toNat ≤ x.toNat := by
  rw [← h, BitVec.toNat_and]
  exact Nat.and_le_left

theorem toNat_sub_of_le {x c : BitVec 32} (h : c.toNat ≤ x.toNat) : (x - c).toNat = x.toNat - c.toNat :=
  BitVec.toNat_sub_of_le h

/-- A copy is inside its region exactly if the section fits. -/
theorem inside_iff_fits {hdr : SectionHeader} {region : Overlay} (h : copyTarget V hdr = some region) :
    ((align hdr.secSize V.axiAlign).toNat = 0 ∨
      (copyOffset V hdr region).toNat + (align hdr.secSize V.axiAlign).toNat ≤ region.len) ↔
      CopyFits V hdr region := by
  have hzero : align hdr.secSize V.axiAlign = 0 ↔ (align hdr.secSize V.axiAlign).toNat = 0 := BitVec.toNat_inj.symm
  generalize hn : align hdr.secSize V.axiAlign = size at *
  unfold copyTarget at h
  rw [hn] at h
  by_cases hinfo : hdr.secInfo ≠ 0
  · rw [if_pos hinfo] at h
    by_cases hhost : V.overlayBaseAddr ≤ hdr.secInfo ∧ hdr.secInfo + size < V.overlayBaseAddr + gulVspaOverlaySize
    · rw [if_pos hhost] at h
      obtain rfl := Option.some.inj h
      obtain ⟨hle, hend⟩ := hhost
      rw [BitVec.le_def] at hle
      rw [BitVec.lt_def, BitVec.toNat_add, BitVec.toNat_add] at hend
      have h1 := hdr.secInfo.isLt
      have h2 := size.isLt
      have h3 := V.overlayBaseAddr.isLt
      have hlen : gulVspaOverlaySize.toNat = 0x200000 := by decide
      simp only [copyOffset, CopyFits, Overlay.len]
      rw [hn, toNat_sub_of_le hle]
      rw [hlen] at hend ⊢
      omega
    · rw [if_neg hhost] at h
      by_cases hpebm : hdr.secInfo &&& gulPebmOverlayBase = gulPebmOverlayBase
      · rw [if_pos hpebm] at h
        obtain rfl := Option.some.inj h
        have hle := le_of_and_eq hpebm
        have hbase : gulPebmBaseAddr.toNat ≤ gulPebmOverlayBase.toNat := by decide
        unfold copyOffset CopyFits
        rw [hn, hzero, toNat_sub_of_le (hbase.trans hle)]
        omega
      · rw [if_neg hpebm] at h
        cases h
  · rw [if_neg hinfo] at h
    by_cases hfeca : hdr.secAddr &&& gulFecaBaseAddr = gulFecaBaseAddr
    · rw [if_pos hfeca] at h
      obtain rfl := Option.some.inj h
      have hle := le_of_and_eq hfeca
      unfold copyOffset CopyFits
      rw [hn, hzero, toNat_sub_of_le hle]
      omega
    · rw [if_neg hfeca] at h
      cases h

/-- The source of the copy still holds the section: the header gives the size
it has in the file, and from the source on the image has the section's bytes,
which lie in the file. -/
def SourceKept (F : Mem) (st : LoadState) (hdr hdrF : SectionHeader) : Prop :=
  let n := (align hdrF.secSize V.axiAlign).toNat
  align hdr.secSize V.axiAlign = align hdrF.secSize V.axiAlign ∧
    (n = 0 ∨ (hdrF.secOffset.toNat + n ≤ fwSize ∧
      ∃ p ∈ copySource st hdr, ∀ i < n, st.mem (p + i) = F (hdrF.secOffset.toNat + i)))

/-- A section that is sent, or goes to no region, or fits its region and is
still at the source of the copy. -/
def CopyKept (F : Mem) (st : LoadState) (secNum : ℕ) : Prop :=
  isSelected info secNum (readSection st.mem shoff str secNum).2 = true ∨
    ∀ region ∈ copyTarget V (readSection st.mem shoff str secNum).1,
      CopyFits V (readSection st.mem shoff str secNum).1 region ∧
        SourceKept V fwSize F st (readSection st.mem shoff str secNum).1 (readSection F shoff str secNum).1

/-- The copy of a visit, if there is one, is safe. -/
def Visit.CopySafe (F : Mem) (m : Mem) (v : Visit) : Prop :=
  ∀ c ∈ v.action.copy, c.Safe F m fwSize (readSection F shoff str v.secNum).1.secOffset.toNat
    (align (readSection F shoff str v.secNum).1.secSize V.axiAlign).toNat

instance (F m : Mem) (v : Visit) : Decidable (v.CopySafe V shoff str fwSize F m) :=
  Option.decidableForallMem _

/-- What is copied are the section's bytes exactly if they are at the source. -/
theorem taken_iff {F : Mem} {st : LoadState} {hdr hdrF : SectionHeader} {region : Overlay} {dst : BitVec 32} :
    (Copy.taken ⟨region, dst, copySource st hdr, align hdr.secSize V.axiAlign⟩ st.mem =
        some (bytes F hdrF.secOffset.toNat (align hdrF.secSize V.axiAlign).toNat) ∧
      ((align hdrF.secSize V.axiAlign).toNat = 0 ∨
        (hdrF.secOffset.toNat : ℤ) + (align hdrF.secSize V.axiAlign).toNat ≤ fwSize)) ↔
      SourceKept V fwSize F st hdr hdrF := by
  unfold SourceKept
  generalize align hdr.secSize V.axiAlign = size
  generalize align hdrF.secSize V.axiAlign = sizeF
  unfold Copy.taken
  dsimp only
  constructor
  · rintro ⟨htaken, hfile⟩
    rcases hsrc : copySource st hdr with _ | p
    · rw [hsrc] at htaken
      by_cases hzero : size.toNat = 0
      · rw [if_pos hzero] at htaken
        have hlen := congrArg List.length (Option.some.inj htaken)
        rw [List.length_nil, length_bytes] at hlen
        exact ⟨BitVec.eq_of_toNat_eq (hzero.trans hlen), Or.inl hlen.symm⟩
      · rw [if_neg hzero] at htaken
        cases htaken
    · rw [hsrc] at htaken
      have hbytes := Option.some.inj htaken
      have hlen := congrArg List.length hbytes
      rw [length_bytes, length_bytes] at hlen
      refine ⟨BitVec.eq_of_toNat_eq hlen, ?_⟩
      rw [hlen] at hbytes
      rcases hfile with hzero | hin
      · exact Or.inl hzero
      · exact Or.inr ⟨by omega, p, rfl, bytes_eq_bytes_iff.mp hbytes⟩
  · rintro ⟨rfl, hzero | ⟨hin, p, hp, hsame⟩⟩
    · refine ⟨?_, Or.inl hzero⟩
      rcases copySource st hdr with _ | p
      · rw [hzero]
        rfl
      · rw [hzero]
        rfl
    · rw [hp]
      exact ⟨congrArg some (bytes_eq_bytes_iff.mpr hsame), Or.inr (by omega)⟩

/-- One section: the copy is safe exactly if the section is kept and fits. -/
theorem copySafe_iff_kept (F : Mem) (st : LoadState) (secNum : ℕ) :
    Visit.CopySafe V shoff str fwSize F st.mem (loadSection V info dma shoff str fwSize st secNum).1 ↔
      CopyKept V info shoff str fwSize F st secNum := by
  obtain ⟨⟨v, st', next⟩, hround⟩ : ∃ out, loadSection V info dma shoff str fwSize st secNum = out := ⟨_, rfl⟩
  rw [hround]
  obtain ⟨hdr, name, action, rfl, hread, ⟨hsel, hout⟩ | ⟨hsel, hov⟩⟩ :=
    loadSection_cases V info dma shoff str fwSize hround
  · unfold Visit.CopySafe CopyKept
    dsimp only
    rw [hread, dmaSection_copy V info dma fwSize hout]
    exact iff_of_true (fun c hc => absurd hc (Option.not_mem_none c)) (Or.inl hsel)
  · unfold Visit.CopySafe CopyKept
    have hcopy := overlaySection_copy V st hdr
    rw [hov] at hcopy
    dsimp only at hcopy ⊢
    rw [hread, hcopy, or_iff_right hsel]
    rcases htarget : copyTarget V hdr with _ | region
    · exact iff_of_true (fun c hc => absurd hc (Option.not_mem_none c)) fun r hr => absurd hr (Option.not_mem_none r)
    · simp only [Option.map_some, Option.mem_def, Option.some.injEq, forall_eq']
      rw [Copy.safe_iff, ← and_assoc, taken_iff, and_comm]
      exact and_congr_left fun _ => inside_iff_fits V htarget

end Load

/-- The sections the driver visits in an image, each with the state it finds. -/
def imageSteps (V : VspaDev) (info : VspaSecInfo) (dma : ℕ → DmaResp) (hd : FileHeader) (fwSize : ℕ) (F : Mem) :
    List (LoadState × Visit) :=
  loadSteps V info dma hd.fhShoff (stringTable F hd) fwSize hd.fhShnum.toNat 0 ⟨F, 0, none⟩

/-- Every copy of the load is safe. -/
def CopiesSafe (V : VspaDev) (info : VspaSecInfo) (dma : ℕ → DmaResp) (hd : FileHeader) (fwSize : ℕ) (F : Mem) :
    Prop :=
  ∀ p ∈ imageSteps V info dma hd fwSize F,
    p.2.CopySafe V hd.fhShoff (stringTable F hd) fwSize F p.1.mem

instance (V : VspaDev) (info : VspaSecInfo) (dma : ℕ → DmaResp) (hd : FileHeader) (fwSize : ℕ) (F : Mem) :
    Decidable (CopiesSafe V info dma hd fwSize F) :=
  inferInstanceAs (Decidable (∀ p ∈ _, _))

/-- **Copies by the CPU.** All copies of a load take the section's own bytes of
the file and stay inside their region exactly if every section that is reached
and copied fits its region and, in the image as the sections before it leave
it, is still at the source of the copy. -/
theorem copies_safe_iff (V : VspaDev) (info : VspaSecInfo) (dma : ℕ → DmaResp) (hd : FileHeader) (fwSize : ℕ)
    (F : Mem) :
    (imageSteps V info dma hd fwSize F).map Prod.snd = (fwReadAndLoadSections V info dma hd fwSize F).visits ∧
      (CopiesSafe V info dma hd fwSize F ↔
        ∀ i < hd.fhShnum.toNat,
          (∀ j < i, ¬ Loud V info dma hd.fhShoff (stringTable F hd) fwSize
            (arrival V info hd.fhShoff (stringTable F hd) F j) j) →
          CopyKept V info hd.fhShoff (stringTable F hd) fwSize F
            (arrival V info hd.fhShoff (stringTable F hd) F i) i) := by
  refine ⟨loadSteps_visits V info dma _ _ fwSize _ 0 _, ?_⟩
  have hall := forall_loadSteps_iff V info dma hd.fhShoff (stringTable F hd) fwSize F
    (P := fun st v => v.CopySafe V hd.fhShoff (stringTable F hd) fwSize F st.mem) hd.fhShnum.toNat 0
  simp only [Nat.zero_le, true_implies, Nat.zero_add, copySafe_iff_kept] at hall
  exact hall

/-! ### Three images -/

/-- An image with a section of four bytes at offset 52 with the `sec_info`
`info`, one of four bytes at offset 56 for the address `addr`, and an empty
`.mw_info`. -/
def overlayImage (info addr : BitVec 32) : Mem := ofList <|
  List.replicate 18 0 ++ le16 gccMachCode ++ List.replicate 12 0 ++ le32 80 ++ List.replicate 12 0 ++
    le16 4 ++ le16 3 ++
  -- 52 and 56: the sections, and 60: `.mw_info`
  [1, 2, 3, 4] ++ [5, 6, 7, 8] ++ List.replicate 8 0 ++
  -- 68: the names
  [0] ++ ascii ['.', 'm', 'w', '_', 'i', 'n', 'f', 'o'] ++ [0, 0, 0] ++
  -- 80: the section headers, the first with a `sec_info`
  le32 0 ++ List.replicate 12 0 ++ le32 52 ++ le32 4 ++ List.replicate 4 0 ++ le32 info ++ List.replicate 8 0 ++
  headerBytes 0 addr 56 4 ++ headerBytes 1 0 60 8 ++ headerBytes 0 0 68 10

/-- With the overlay region at `0x10000000` the image is loaded with 0, and some
copy is not safe. -/
def LoadedAstray (F : Mem) (fwSize : ℕ) : Prop :=
  (gulLoadVspaImage 1 ⟨0, 0x10000000⟩ true promptDma F fwSize).ret = some 0 ∧
    ∀ info ∈ (fwReadAndLoadSectionsInfo 1 F (fileHeader F) true).info,
      ¬ CopiesSafe ⟨0, 0x10000000⟩ info promptDma (fileHeader F) fwSize F

instance (F : Mem) (fwSize : ℕ) : Decidable (LoadedAstray F fwSize) :=
  inferInstanceAs (Decidable (_ ∧ ∀ info ∈ _, _))

/-- A FECA section gets the bytes of the PEBM section before it; a section goes
far beyond the PEBM; and one whose end wraps, far beyond the overlay region. -/
theorem copies_astray :
    LoadedAstray (overlayImage 0xE0380000 0xE5000000) 240 ∧ LoadedAstray (overlayImage 0xFFF80000 0) 240 ∧
      LoadedAstray (overlayImage 0xFFFFFFFC 0) 240 := by
  refine ⟨?_, ?_, ?_⟩
  · decide +kernel
  · decide +kernel
  · decide +kernel

end Vspa
end La12xx
