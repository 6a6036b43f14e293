/-
# Files that are delivered

What the decoders of the library work on: `Delivers` says that
`usim_read_transparent` gives the caller a file, and leaves what is behind it in
the buffer as it was. A card that answers the three commands for a file
delivers it (`delivers_of_answers`), `binaryCard` for one.
-/
import La12xx.Usim.Files
import La12xx.Usim.WriteSuccess

namespace La12xx
namespace Usim

open ByteMem Dialogue

section Delivers

variable (S : Sim) (E : Env) (fileid : Word) (dirFileid : ℤ) {σ : Type} (card : σ → Apdu → σ × Resp) (s : σ)
  (file : List Byte)

/-- The file is read into every buffer. -/
def Delivers : Prop :=
  ∀ (len : ℤ) (buf : Mem), ∃ buf', Holds buf' 0 file ∧ (∀ p : ℤ, file.length ≤ p → buf' p = buf p) ∧
    (run card (readTransparent S E fileid len buf dirFileid) s).val = some ⟨0, file.length, buf'⟩

/-- The reading of the file fails, into every buffer. -/
def ReadFails : Prop :=
  ∀ (len : ℤ) (buf : Mem), ∃ out,
    (run card (readTransparent S E fileid len buf dirFileid) s).val = some out ∧ out.ret < 0

variable {S E fileid dirFileid card s file}

theorem Delivers.not_readFails (h : Delivers S E fileid dirFileid card s file) :
    ¬ ReadFails S E fileid dirFileid card s := by
  intro hf
  obtain ⟨buf, -, -, hval⟩ := h 0 E.heap
  obtain ⟨out, hval', hret⟩ := hf 0 E.heap
  rw [hval, Option.some.injEq] at hval'
  subst hval'
  exact absurd hret (lt_irrefl _)

/-- A reader that goes on with a file that is delivered. -/
theorem Delivers.val_bind {α : Type} (h : Delivers S E fileid dirFileid card s file) (len : ℤ) (buf : Mem)
    (f : ReadOut → Card α) :
    ∃ buf', Holds buf' 0 file ∧ (∀ p : ℤ, file.length ≤ p → buf' p = buf p) ∧ ∃ t,
      (run card (readTransparent S E fileid len buf dirFileid >>= f) s).val =
        (run card (f ⟨0, file.length, buf'⟩) t).val := by
  obtain ⟨buf', hbuf, hbehind, hval⟩ := h len buf
  refine ⟨buf', hbuf, hbehind, (run card (readTransparent S E fileid len buf dirFileid) s).state, ?_⟩
  rw [run_bind, hval]

/-- What is copied from the response is delivered. -/
theorem copy_behind {src buf : Mem} {p : ℤ} {n : ℕ} (hp : (n : ℤ) ≤ p) : copy buf 0 src 1 n p = buf p :=
  if_neg fun h => by omega

/-- The work on a selected file that is described and read. -/
theorem val_readFile {resp : Resp} {b : Bool} {len : ℤ} {buf : Mem} {n : ℕ}
    (hd : let d := card s (getResponseCmd S (resp.data 2).toNat)
      0 ≤ d.2.ret ∧ d.2.sw ((resp.data 2).toNat + 1) 0x90 0x00 ∧ transparentLen S E d.2.data = some (n : ℤ))
    (hm : E.malloc (n + 3))
    (hr : let a := card (card s (getResponseCmd S (resp.data 2).toNat)).1 (readBinaryCmd S n)
      0 ≤ a.2.ret ∧ a.2.sw (n + 1) 0x90 0x00) :
    (run card (readFile S E resp len buf b) s).val = some ⟨0, n,
      copy buf 0 (card (card s (getResponseCmd S (resp.data 2).toNat)).1 (readBinaryCmd S n)).2.data 1 n⟩ := by
  obtain ⟨hret, hsw, hlen⟩ := hd
  obtain ⟨hret', hsw'⟩ := hr
  have hcopy : ∀ src : Mem, copyOut buf src (n : ℤ) = pure (copy buf 0 src 1 n) := fun src => if_pos (by omega)
  simp only [readFile, withDescription, sendReceiveAPDU, run_query_bind, not_lt.mpr hret, hsw, hlen, hm,
    not_lt.mpr hret', hsw', hcopy, not_true, if_false, Dialogue.pure_bind, val_leave]

/-- A card that has the directory and the file, describes it and gives its
content delivers it. -/
theorem delivers_of_answers {u : σ} (hu : u = if dirFileid = 0 then s else (dirAnswer S card s dirFileid).1)
    (hdir : dirFileid ≠ 0 → (dirAnswer S card s dirFileid).2.Selected)
    (hfile : (card u (selectByIdCmd S fileid)).2.Selected)
    (hd : let a := card u (selectByIdCmd S fileid)
      let d := card a.1 (getResponseCmd S (a.2.data 2).toNat)
      0 ≤ d.2.ret ∧ d.2.sw ((a.2.data 2).toNat + 1) 0x90 0x00 ∧ transparentLen S E d.2.data = some (file.length : ℤ))
    (hm : E.malloc (file.length + 3))
    (hr : let a := card u (selectByIdCmd S fileid)
      let d := card a.1 (getResponseCmd S (a.2.data 2).toNat)
      let r := card d.1 (readBinaryCmd S file.length)
      0 ≤ r.2.ret ∧ r.2.sw (file.length + 1) 0x90 0x00 ∧ Holds r.2.data 1 file) :
    Delivers S E fileid dirFileid card s file := by
  intro len buf
  obtain ⟨hret, hsw, hdata⟩ := hr
  refine ⟨_, hdata.copy buf 0, fun p hp => copy_behind hp, ?_⟩
  by_cases h0 : dirFileid = 0
  · rw [if_pos h0] at hu
    subst hu
    rw [readTransparent, withDir, if_neg (not_not.mpr h0), run_withFile hfile]
    exact val_readFile hd hm ⟨hret, hsw⟩
  · rw [if_neg h0] at hu
    subst hu
    rw [readTransparent, run_withDir h0 (hdir h0), run_withFile hfile]
    exact val_readFile hd hm ⟨hret, hsw⟩

end Delivers

/-- The USIM with one transparent file delivers it in every directory. -/
theorem delivers_binaryCard {S : Sim} (hS : S.type = .usim) {E : Env} {file : List Byte} (hlen : file.length ≤ 253)
    (hm : E.malloc (file.length + 3)) (fileid : Word) (dirFileid : ℤ) :
    Delivers S E fileid dirFileid binaryCard file file := by
  have hread := (binaryFile hS fileid).read file hlen
  refine delivers_of_answers (u := file) ?_ (fun _ => selected_of_61 _) (selected_of_61 _)
    ⟨le_rfl, ⟨rfl, rfl⟩, transparentLen_binaryCard hS E hlen⟩ hm ⟨hread.1, hread.2.1, hread.2.2.1⟩
  split <;> rfl

/-- The USIM with one transparent file, which is read only and has a length of
`n` bytes at most. -/
def romCard {n : ℕ} (s : {l : List Byte // l.length ≤ n}) (q : Apdu) : {l : List Byte // l.length ≤ n} × Resp :=
  (s, (binaryCard s.1 q).2)

theorem delivers_romCard {S : Sim} (hS : S.type = .usim) {E : Env} {n : ℕ} (hn : n ≤ 253)
    (s : {l : List Byte // l.length ≤ n}) (hm : E.malloc (s.1.length + 3)) (fileid : Word) (dirFileid : ℤ) :
    Delivers S E fileid dirFileid romCard s s.1 := by
  have hread := (binaryFile hS fileid).read s.1 (s.2.trans hn)
  refine delivers_of_answers (u := s) ?_ (fun _ => selected_of_61 _) (selected_of_61 _)
    ⟨le_rfl, ⟨rfl, rfl⟩, transparentLen_binaryCard hS E (s.2.trans hn)⟩ hm ⟨hread.1, hread.2.1, hread.2.2.1⟩
  split <;> rfl

/-- A file of the application that a card keeps is delivered. -/
theorem TransparentFile.delivers {S : Sim} {E : Env} {fileid : Word} {σ : Type} {card : σ → Apdu → σ × Resp}
    (F : TransparentFile S fileid card) {s : σ} (hs : F.inApp s) (hm : E.malloc ((F.content s).length + 3)) :
    Delivers S E fileid 0 card s (F.content s) := by
  obtain ⟨hsel, hret, hsw, hlen, hat, hsame⟩ := F.select s hs
  have hread := F.read _ hat
  rw [hsame] at hread
  exact delivers_of_answers (if_pos rfl).symm (fun h => absurd rfl h) hsel ⟨hret, hsw, hlen E⟩ hm
    ⟨hread.1, hread.2.1, hread.2.2.1⟩

end Usim
end La12xx
