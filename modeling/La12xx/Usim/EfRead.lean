/-
# The content of a transparent file

What `usim_read_transparent` leaves in the caller's buffer. `Fetched` names the
answers of the card with which it returns `0`; for a card that keeps a file of any
size (`TransparentEf`) the buffer holds the whole file then. READ BINARY asks for
the low byte of the length. No file of 254 bytes or more is read: the answer would
not fit into the driver's buffer, and the driver refuses the command.
-/
import La12xx.Usim.Bounds

namespace La12xx
namespace Usim

open ByteMem Dialogue

namespace Bounds

/-! ### The answers with which a file is read -/

section Fetched

variable (S : Sim) (E : Env) (debug : BitVec 32) {σ : Type} (card : σ → Apdu → σ × Resp) (s : σ) (dirFileid : ℤ)
  (fileid : Word)

/-- The answer to READ BINARY. -/
def contentAnswer (n : ℕ) : Resp :=
  (card (descriptionAnswer S card s dirFileid fileid).1 (readBinaryCmd S n)).2

/-- The file is described with a length of `n` bytes, and they are read. -/
structure Fetched (n : ℕ) : Prop where
  described : Described S card s dirFileid fileid
  readable : SizeReadable S debug (description S card s dirFileid fileid)
  length : transparentLen S E (description S card s dirFileid fileid).mem = some (n : ℤ)
  malloc : E.malloc (n + 3)
  short : n ≤ 253
  ret : 0 ≤ (contentAnswer S card s dirFileid fileid n).ret
  sw : (contentAnswer S card s dirFileid fileid n).sw (n + 1) 0x90 0x00

variable {S E debug card s dirFileid fileid}

/-- With these answers the function returns `0`. -/
theorem Fetched.val {n : ℕ} (h : Fetched S E debug card s dirFileid fileid n) (len : ℤ) (buf : Mem) :
    (run card (readTransparent S E debug fileid len buf dirFileid) s).val =
      some ⟨0, n, copy buf 0 (contentAnswer S card s dirFileid fileid n).data 1 n, n⟩ := by
  obtain ⟨b, hval⟩ := val_of_described h.described (fun ret => (⟨ret, len, buf, 0⟩ : Read)) (readFile S E debug len buf)
  obtain ⟨r, hr, -, hlen⟩ := fileSize_of_readable (description_size dirFileid fileid) h.readable
  rw [readTransparent, hval, readFile, hr, Dialogue.pure_bind, (hlen E).trans h.length]
  exact (val_readContent n buf b).trans (if_pos ⟨h.malloc, h.short, h.ret, h.sw⟩)

/-- With others it returns an error, and stores nothing. -/
theorem failed_of_not_fetched (h : ∀ n, ¬ Fetched S E debug card s dirFileid fileid n) {len : ℤ} {buf : Mem} {out : Read}
    (hval : (run card (readTransparent S E debug fileid len buf dirFileid) s).val = some out) :
    out.ret < 0 ∧ out.stored = 0 := by
  have hneg : (-1 : ℤ) < 0 := by decide
  by_cases hd : Described S card s dirFileid fileid
  swap
  · obtain ⟨r, hr, hval'⟩ := val_of_not_described hd (fun ret => (⟨ret, len, buf, 0⟩ : Read)) (readFile S E debug len buf)
    rw [readTransparent, hval', Option.some.injEq] at hval
    subst hval
    exact ⟨hr, rfl⟩
  obtain ⟨b, hval'⟩ := val_of_described hd (fun ret => (⟨ret, len, buf, 0⟩ : Read)) (readFile S E debug len buf)
  rw [readTransparent, hval', readFile] at hval
  by_cases hread : SizeReadable S debug (description S card s dirFileid fileid)
  swap
  · rw [fileSize_of_not_readable (description_size dirFileid fileid) hread, fault_bind] at hval
    exact absurd hval (by simp)
  obtain ⟨r, hr, h0, hlen⟩ := fileSize_of_readable (description_size dirFileid fileid) hread
  rw [hr, Dialogue.pure_bind] at hval
  cases r with
  | none =>
    dsimp only at hval
    rw [val_leave, Option.some.injEq] at hval
    subst hval
    exact ⟨hneg, rfl⟩
  | some n =>
    obtain ⟨n, rfl⟩ := Int.eq_ofNat_of_zero_le (h0 n rfl)
    have hval : (run card (readContent S E n buf b) (descriptionAnswer S card s dirFileid fileid).1).val = some out := hval
    rw [val_readContent] at hval
    dsimp only at hval
    split at hval
    · next hok =>
      obtain ⟨hm, hshort, hret, hsw⟩ := hok
      exact absurd ⟨hd, hread, (hlen E).symm, hm, hshort, hret, hsw⟩ (h n)
    · rw [Option.some.injEq] at hval
      subst hval
      exact ⟨hneg, rfl⟩

end Fetched

/-! ### A card with a file -/

/-- The bytes that a one-byte Le asks for. -/
def leLen (le : Byte) : ℕ := if le = 0 then 256 else le.toNat

/-- A description of `len` bytes gives the size of the file: in a template with the
TLV for it, or in the bytes 3 and 4. -/
def Announces (S : Sim) (m : Mem) (len size : ℕ) : Prop :=
  match S.type with
  | .gsm => 4 ≤ len ∧ (m 3).toNat * 256 + (m 4).toNat = size
  | .usim => m 1 = 0x62 ∧ (m 2).toNat + 2 = len ∧ ∃ ts, Fcp.Body m ts ∧ (∃ t ∈ ts, t.tag = 0x80) ∧
      ∀ t ∈ ts, t.tag = 0x80 → Fcp.fileSize? t = some (size : ℤ)

/-- A card with a transparent file. What it does besides these answers is not said,
and any transfer may fail. -/
structure TransparentEf (S : Sim) (dirFileid : ℤ) (fileid : Word) (content : List Byte) {σ : Type}
    (card : σ → Apdu → σ × Resp) where
  /-- the directory of the file is selected -/
  inDir : σ → Prop
  /-- the file is selected -/
  atFile : σ → Prop
  enter : ∀ s, dirFileid ≠ 0 → (dirAnswer S card s dirFileid).2.Selected → inDir (dirAnswer S card s dirFileid).1
  describe : ∀ s, inDir s →
    let a := card s (selectByIdCmd S fileid)
    let n := (a.2.data 2).toNat
    let d := card a.1 (getResponseCmd S n)
    a.2.Selected → 0 ≤ d.2.ret → d.2.sw (n + 1) 0x90 0x00 → atFile d.1 ∧ Announces S d.2.data n content.length
  read : ∀ s (le : Byte), atFile s → leLen le ≤ content.length →
    let r := (card s [cla S, 0xb0, 0x00, 0x00, le]).2
    0 ≤ r.ret → Holds r.data 1 (content.take (leLen le) ++ [0x90, 0x00])

section Announces

variable {S : Sim} {m : Mem} {len size : ℕ}

/-- The description is in the buffer as the card gave it. -/
theorem Announces.filled (h : Announces S m len size) (hlen : len ≤ 253) :
    Announces S ((Arr.zeros 256).filled m (len + 3)).mem len size := by
  have hmem : ∀ p : ℤ, 0 ≤ p → p ≤ len + 2 → ((Arr.zeros 256).filled m (len + 3)).mem p = m p := fun p h0 hp =>
    Arr.mem_filled h0 (by push_cast; omega)
  unfold Announces at h ⊢
  cases hS : S.type with
  | gsm =>
    simp only [hS] at h ⊢
    rw [hmem 3 (by decide) (by omega), hmem 4 (by decide) (by omega)]
    exact h
  | usim =>
    simp only [hS] at h ⊢
    obtain ⟨htag, hn, ts, hbody, hts⟩ := h
    have h2 := hmem 2 (by decide) (by omega)
    refine ⟨(hmem 1 (by decide) (by omega)).trans htag, by rw [h2]; exact hn, ts, ?_, hts⟩
    unfold Fcp.Body at hbody ⊢
    rw [h2, ← hbody]
    exact bytes_eq_iff.mpr fun p h3 hp => hmem p (by omega) (by omega)

/-- The length that is taken from the description. -/
theorem Announces.transparentLen_eq (h : Announces S m len size) (E : Env) : transparentLen S E m = some (size : ℤ) := by
  unfold Announces at h
  unfold transparentLen
  cases hS : S.type with
  | gsm =>
    simp only [hS] at h ⊢
    exact congrArg some (by exact_mod_cast h.2)
  | usim =>
    simp only [hS] at h ⊢
    obtain ⟨htag, -, ts, hbody, ⟨t, ht, h80⟩, hall⟩ := h
    have hne : ts ≠ [] := List.ne_nil_of_mem ht
    obtain ⟨info, hinfo, hfile, -⟩ := @parseFcpTmpl_of_body true true m ts htag hne hbody E.uninit
    have hlast : Fcp.lastOf Fcp.fileSize? ts = some (size : ℤ) := by
      have hsome : Fcp.lastOf Fcp.fileSize? ts ≠ none := fun hnone => by
        have hgives := lastOf_eq_none_iff.mp hnone t ht
        rw [hall t ht h80] at hgives
        exact absurd hgives (by simp)
      obtain ⟨n, hn⟩ := Option.ne_none_iff_exists'.mp hsome
      obtain ⟨t', ht', hgives⟩ := List.exists_of_findSome?_eq_some hn
      have h80' := (fileSize?_ne_none_iff.mp (by rw [hgives]; simp)).1
      rw [hn, ← hgives]
      exact hall t' (List.mem_reverse.mp ht') h80'
    rw [hinfo, Option.map_some, hfile, fileLen_assignAll_eq hbody, hlast, Option.getD_some]

/-- It is taken without a fault. -/
theorem Announces.sizeReadable {buffer : Arr} (h : Announces S buffer.mem len size) (hlen : len ≤ 253)
    (hsize : buffer.size = 256) (debug : BitVec 32) : SizeReadable S debug buffer := by
  intro hS
  unfold Announces at h
  simp only [hS] at h
  obtain ⟨-, hn, ts, hbody, ⟨t, ht, h80⟩, hall⟩ := h
  constructor
  · -- a TLV begins before the end of the description, and at most three bytes behind its tag are read
    intro _ p ts' hts' hp
    have hread : lastRead debug true false (buffer.mem p) (buffer.mem (p + 1)) ≤ 3 := by
      simp only [lastRead, caseRead, and_true, Bool.false_eq_true, and_false, if_false]
      split_ifs <;> decide
    rw [Fcp.last] at hp
    rw [hsize]
    push_cast
    omega
  · intro _ ts' _ hbody'
    have heq : ts' = ts := by
      have h' := La12xx.Tlv.decode_eq_some_iff.mpr hbody'
      rw [La12xx.Tlv.decode_eq_some_iff.mpr hbody, Option.some.injEq] at h'
      exact h'.symm
    subst heq
    refine ⟨t, ht, fileSize?_ne_none_iff.mp ?_⟩
    rw [hall t ht h80]
    simp

end Announces

/-! ### What is read -/

section Faithful

variable {S : Sim} {dirFileid : ℤ} {fileid : Word} {content : List Byte} {σ : Type} {card : σ → Apdu → σ × Resp}
  (F : TransparentEf S dirFileid fileid content card) (E : Env) (debug : BitVec 32) {s : σ}

/-- The file is described honestly, and read after that. -/
theorem TransparentEf.described (hs : dirFileid = 0 → F.inDir s) (hd : Described S card s dirFileid fileid) :
    F.atFile (descriptionAnswer S card s dirFileid fileid).1 ∧
      Announces S (description S card s dirFileid fileid).mem (blen S card s dirFileid fileid) content.length := by
  obtain ⟨⟨hdir, hsel⟩, hlen, hret, hsw⟩ := hd
  have hin : F.inDir (if dirFileid = 0 then s else (dirAnswer S card s dirFileid).1) := by
    by_cases h0 : dirFileid = 0
    · rw [if_pos h0]
      exact hs h0
    · rw [if_neg h0]
      exact F.enter s h0 (hdir h0)
  obtain ⟨hat, hann⟩ := F.describe _ hin hsel hret hsw
  exact ⟨hat, hann.filled hlen⟩

/-- No access is a fault, whatever the size of the file. -/
theorem TransparentEf.val_ne_none (hs : dirFileid = 0 → F.inDir s) (len : ℤ) (buf : Mem) :
    (run card (readTransparent S E debug fileid len buf dirFileid) s).val ≠ none :=
  (readTransparent_returns_iff fileid len buf dirFileid).mpr fun hd =>
    (F.described hs hd).2.sizeReadable hd.2.1 rfl debug

/-- The length that a file is read with is its own. -/
theorem TransparentEf.length_eq (hs : dirFileid = 0 → F.inDir s) {n : ℕ}
    (h : Fetched S E debug card s dirFileid fileid n) : n = content.length := by
  have hlen := (F.described hs h.described).2.transparentLen_eq E
  rw [h.length, Option.some.injEq] at hlen
  exact_mod_cast hlen

/-- Up to 253 bytes the Le is the length. -/
theorem leLen_ofInt {n : ℕ} (h1 : 1 ≤ n) (h253 : n ≤ 253) : leLen (BitVec.ofInt 8 (n : ℤ)) = n := by
  have hnat : (BitVec.ofInt 8 (n : ℤ)).toNat = n := by
    rw [BitVec.ofInt_natCast, BitVec.toNat_ofNat]
    exact Nat.mod_eq_of_lt (by omega)
  have hne : BitVec.ofInt 8 (n : ℤ) ≠ 0 := fun h => by
    rw [h] at hnat
    exact absurd hnat.symm (by simp; omega)
  rw [leLen, if_neg hne, hnat]

/-- The bytes behind the procedure byte are the file. -/
theorem TransparentEf.content_held (hs : dirFileid = 0 → F.inDir s) {n : ℕ}
    (h : Fetched S E debug card s dirFileid fileid n) :
    Holds (contentAnswer S card s dirFileid fileid n).data 1 content := by
  obtain rfl := F.length_eq E debug hs h
  by_cases h0 : content.length = 0
  · rw [List.length_eq_zero_iff.mp h0]
    exact holds_nil _ _
  have hle := leLen_ofInt (Nat.one_le_iff_ne_zero.mpr h0) h.short
  have hread := F.read _ (BitVec.ofInt 8 (content.length : ℤ)) (F.described hs h.described).1 hle.le h.ret
  rw [hle, List.take_length, holds_append] at hread
  exact hread.1

/-- A file whose answer does not fit into the driver's buffer is not read. -/
theorem TransparentEf.failed_of_long (hs : dirFileid = 0 → F.inDir s) (hlong : 254 ≤ content.length) {len : ℤ} {buf : Mem}
    {out : Read} (hval : (run card (readTransparent S E debug fileid len buf dirFileid) s).val = some out) :
    out.ret < 0 ∧ out.stored = 0 := by
  refine failed_of_not_fetched (fun n h => ?_) hval
  have hn := F.length_eq E debug hs h
  have hshort := h.short
  omega

/-- Every file that is read is read whole; its length is the one that the card
announces. -/
theorem readTransparent_faithful (hs : dirFileid = 0 → F.inDir s) (len : ℤ) (buf : Mem) :
    ∃ out, (run card (readTransparent S E debug fileid len buf dirFileid) s).val = some out ∧
      (out.ret = 0 → out.len = content.length ∧ Holds out.buf 0 content) := by
  obtain ⟨out, hval⟩ := Option.ne_none_iff_exists'.mp (F.val_ne_none E debug hs len buf)
  refine ⟨out, hval, fun hret => ?_⟩
  obtain ⟨n, h⟩ : ∃ n, Fetched S E debug card s dirFileid fileid n := by
    by_contra hnone
    have hneg := (failed_of_not_fetched (not_exists.mp hnone) hval).1
    omega
  rw [h.val, Option.some.injEq] at hval
  subst hval
  have hheld := F.content_held E debug hs h
  obtain rfl := F.length_eq E debug hs h
  exact ⟨rfl, hheld.copy buf 0⟩

end Faithful

/-- A USIM with one transparent file, in every directory. -/
def keptCard (content : List Byte) (s : Unit) (q : Apdu) : Unit × Resp :=
  (s, if q.getD 1 0 = 0xa4 then statusResp 0x61 0x06
    else if q.getD 1 0 = 0xc0 then
      ⟨0, ofList [0xc0, 0x62, 0x04, 0x80, 0x02, BitVec.ofNat 8 (content.length / 256), BitVec.ofNat 8 content.length,
        0x90, 0x00]⟩
    else if q.getD 1 0 = 0xb0 then ⟨0, ofList ([0xb0] ++ (content.take (leLen (q.getD 4 0)) ++ [0x90, 0x00]))⟩
    else statusResp 0x6d 0x00)

def keptEf {S : Sim} (hS : S.type = .usim) (dirFileid : ℤ) (fileid : Word) (content : List Byte)
    (hlen : content.length < 65536) : TransparentEf S dirFileid fileid content (keptCard content) where
  inDir _ := True
  atFile _ := True
  enter _ _ _ := trivial
  describe _ _ := by
    intro a n d _ _ _
    refine ⟨trivial, ?_⟩
    rw [Announces, hS]
    refine ⟨rfl, rfl, [⟨0x80, [BitVec.ofNat 8 (content.length / 256), BitVec.ofNat 8 content.length],
      show 2 < 256 by decide⟩], rfl,
      ⟨_, List.mem_singleton_self _, rfl⟩, fun t ht _ => ?_⟩
    obtain rfl := List.mem_singleton.mp ht
    have hsum : content.length / 256 % 2 ^ 8 * 256 + content.length % 2 ^ 8 = content.length := by omega
    show some (((BitVec.ofNat 8 (content.length / 256)).toNat : ℤ) * 256 + (BitVec.ofNat 8 content.length).toNat) = _
    rw [BitVec.toNat_ofNat, BitVec.toNat_ofNat]
    exact congrArg some (by exact_mod_cast hsum)
  read _ le _ _ := by
    intro r _
    have hheld := holds_ofList ([0xb0] ++ (content.take (leLen le) ++ [0x90, 0x00]))
    rw [holds_append] at hheld
    exact hheld.2

/-- A file of three bytes. -/
theorem readTransparent_faithful_three :
    ∃ out, (run (keptCard [0x01, 0x02, 0x03]) (readTransparent fiveByteAid plainEnv 3 0x6f07 0 (fun _ => 0) 0) ()).val =
        some out ∧
      (out.ret = 0 → out.len = 3 ∧ Holds out.buf 0 [0x01, 0x02, 0x03]) :=
  readTransparent_faithful (keptEf rfl 0 0x6f07 [0x01, 0x02, 0x03] (by decide)) plainEnv 3 (fun _ => trivial) 0
    (fun _ => 0)

end Bounds
end Usim
end La12xx
