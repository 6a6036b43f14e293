/-
# The PLMN lists

Five pairs of functions: one reads a file, leaves its entries in a table of the
library and counts them, the other one copies entries from the table. The count
is added to what the caller passes. The module follows the tables through any
sequence of calls, with the card in any state at each; `lists_iff` says in which
runs every call does what it should.
-/
import La12xx.Lib.Loop
import La12xx.Lib.Machine
import La12xx.Usim.Delivery
import La12xx.Usim.Fplmn

namespace La12xx
namespace Usim

open ByteMem Dialogue

/-! ### The tables -/

/-- An entry of a table: `vqa_plmnact_t`, or `vqa_plmn_t` without the access
technology. -/
structure PlmnEntry where
  plmn : Plmn
  actId : Option Word
deriving DecidableEq, Repr

/-- `USIM_PLMN_MAX_LENGTH` -/
def plmnMaxLength : ℤ := 300

/-- `USIM_PLMN_MAX_COUNT` -/
def plmnMaxCount : ℕ := 100

def hplmnactFileid : Word := 0x6f62
def ehplmnFileid : Word := 0x6fd9
def uplmnactFileid : Word := 0x6f60
def opcontrlactFileid : Word := 0x6f61

/-- The length of an entry in a file. -/
def entrySize (withAct : Bool) : ℕ := if withAct then 5 else 3

/-- The entry at `p` in the buffer. -/
def entryAt (m : Mem) (withAct : Bool) (p : ℤ) : PlmnEntry :=
  ⟨⟨m p, m (p + 1), m (p + 2)⟩, if withAct then some (u16 m (p + 3)) else none⟩

/-- What the loop of a counting function carries: `j`, `*count` and the table. -/
structure Listing where
  j : ℕ
  count : ℤ
  table : ℕ → PlmnEntry

/-- One round of the loop. -/
def listRound (m : Mem) (withAct : Bool) (i : ℕ) (st : Listing) : Listing :=
  let e := entryAt m withAct (i * entrySize withAct)
  if e.plmn ≠ Plmn.free then ⟨st.j + 1, st.count + 1, Function.update st.table st.j e⟩ else st

/-- A counting function: the return value, `*count` and the table. -/
def listCount (S : Sim) (E : Env) (fileid : Word) (withAct : Bool) (table : ℕ → PlmnEntry) (count : ℤ) :
    Card (ℤ × ℤ × (ℕ → PlmnEntry)) := do
  let out ← readTransparent S E fileid 0 E.heap 0
  if out.ret < 0 then pure (out.ret, count, table)
  else
    let len := if out.len > plmnMaxLength then plmnMaxLength else out.len
    let st := loop (len.toNat / entrySize withAct) (listRound out.buf withAct) ⟨0, count, table⟩
    pure (0, st.count, st.table)

/-- A reading function: the entries it copies; `none` if it reads past the table. -/
def listEntries (table : ℕ → PlmnEntry) (count : ℤ) : Option (List PlmnEntry) :=
  if count ≤ plmnMaxCount then some ((List.range count.toNat).map table) else none

section Functions

variable (S : Sim) (E : Env) (table : ℕ → PlmnEntry) (count : ℤ)

/-- `vtq_usim_read_hplmnact_list_count` -/
def readHplmnactListCount := listCount S E hplmnactFileid true table count

/-- `vtq_usim_read_hplmnact` -/
def readHplmnact := listEntries table count

/-- `vtq_usim_read_ehplmn_list_count` -/
def readEhplmnListCount := listCount S E ehplmnFileid false table count

/-- `vtq_usim_read_ehplmn` -/
def readEhplmn := listEntries table count

/-- `vtq_usim_read_user_plmnact_list_count` -/
def readUserPlmnactListCount := listCount S E uplmnactFileid true table count

/-- `vtq_usim_read_uplmnact` -/
def readUplmnact := listEntries table count

/-- `vtq_usim_read_opc_plmnact_list_count` -/
def readOpcPlmnactListCount := listCount S E opcontrlactFileid true table count

/-- `vtq_usim_read_opc_plmnact` -/
def readOpcPlmnact := listEntries table count

/-- `vtq_usim_read_forbidden_plmn_list_count` -/
def readForbiddenPlmnListCount := listCount S E fplmnFileid false table count

/-- `vtq_usim_read_forbidden_plmns` -/
def readForbiddenPlmns := listEntries table count

end Functions

/-! ### A run of calls -/

/-- The five pairs. -/
inductive PlmnList where
  | hplmnact
  | ehplmn
  | uplmnact
  | opcPlmnact
  | forbidden
deriving DecidableEq, Repr

namespace PlmnList

def fileid : PlmnList → Word
  | hplmnact => hplmnactFileid
  | ehplmn => ehplmnFileid
  | uplmnact => uplmnactFileid
  | opcPlmnact => opcontrlactFileid
  | forbidden => fplmnFileid

def withAct : PlmnList → Bool
  | hplmnact | uplmnact | opcPlmnact => true
  | ehplmn | forbidden => false

/-- The counting function of the pair. -/
def readCount (S : Sim) (E : Env) : PlmnList → (ℕ → PlmnEntry) → ℤ → Card (ℤ × ℤ × (ℕ → PlmnEntry))
  | hplmnact => readHplmnactListCount S E
  | ehplmn => readEhplmnListCount S E
  | uplmnact => readUserPlmnactListCount S E
  | opcPlmnact => readOpcPlmnactListCount S E
  | forbidden => readForbiddenPlmnListCount S E

/-- The reading function of the pair. -/
def readEntries : PlmnList → (ℕ → PlmnEntry) → ℤ → Option (List PlmnEntry)
  | hplmnact => readHplmnact
  | ehplmn => readEhplmn
  | uplmnact => readUplmnact
  | opcPlmnact => readOpcPlmnact
  | forbidden => readForbiddenPlmns

theorem readCount_eq (S : Sim) (E : Env) (list : PlmnList) :
    list.readCount S E = listCount S E list.fileid list.withAct := by
  cases list <;> rfl

theorem readEntries_eq (list : PlmnList) : list.readEntries = listEntries := by
  cases list <;> rfl

end PlmnList

/-- A call, and the state in which it finds the card. -/
inductive ListCall (σ : Type) where
  | count (list : PlmnList) (s : σ) (count : ℤ)
  | read (list : PlmnList) (count : ℤ)

/-- The tables of the library, and for each list the count and the state of the
card when it was last counted. -/
structure PlmnTables (σ : Type) where
  table : PlmnList → ℕ → PlmnEntry
  last : PlmnList → Option (ℤ × σ)

/-- What a call gives: the return value and `*count`, or the entries, with the
count and the state of the card at the last count. -/
inductive ListAnswer (σ : Type) where
  | counted (r : Option (ℤ × ℤ))
  | entries (l : Option (List PlmnEntry)) (last : Option (ℤ × σ))

section Run

variable (S : Sim) (E : Env) {σ : Type} (card : σ → Apdu → σ × Resp)

/-- A call is made. -/
def listStep (t : PlmnTables σ) : ListCall σ → PlmnTables σ × ListAnswer σ
  | .count list s count =>
    match (run card (list.readCount S E (t.table list) count) s).val with
    | none => (t, .counted none)
    | some (ret, count', table) =>
      (⟨Function.update t.table list table,
        if ret = 0 then Function.update t.last list (some (count', s)) else t.last⟩, .counted (some (ret, count')))
  | .read list count => (t, .entries (list.readEntries (t.table list) count) (t.last list))

/-! ### What is expected -/

/-- A card that keeps the five files: each is delivered, or its reading fails. -/
def KeepsLists (content : PlmnList → σ → List Byte) : Prop :=
  ∀ list s, Delivers S E list.fileid 0 card s (content list s) ∨ ReadFails S E list.fileid 0 card s

end Run

/-- The entry of a file that begins at the front. -/
def entryOf (withAct : Bool) (l : List Byte) : PlmnEntry :=
  ⟨⟨l.getD 0 0, l.getD 1 0, l.getD 2 0⟩, if withAct then some (l.getD 4 0 ++ l.getD 3 0) else none⟩

/-- The complete entries of a file. -/
def completeEntries (withAct : Bool) (file : List Byte) : List PlmnEntry :=
  (List.range (file.length / entrySize withAct)).map fun i => entryOf withAct (file.drop (i * entrySize withAct))

/-- The entries of a list: those that are complete in the first 300 bytes and
not free. -/
def listed (withAct : Bool) (file : List Byte) : List PlmnEntry :=
  (completeEntries withAct (file.take plmnMaxLength.toNat)).filter fun e => e.plmn ≠ Plmn.free

/-- What is expected of the answer to a call: a count that ends with `0` counts
the entries, and a read with the last count gives them. -/
def ListRight {σ : Type} (content : PlmnList → σ → List Byte) : ListCall σ → ListAnswer σ → Prop
  | .count list s _, .counted r => ∀ count', r = some (0, count') → count' = (listed list.withAct (content list s)).length
  | .read list count, .entries l last =>
    ∀ s, last = some (count, s) → l = some (listed list.withAct (content list s))
  | _, _ => False

/-- The condition on a step: a count of a file that is delivered begins with `0`. -/
def StartsAtZero (S : Sim) (E : Env) {σ : Type} (card : σ → Apdu → σ × Resp) (content : PlmnList → σ → List Byte)
    (_ : PlmnTables σ) : ListCall σ → Prop
  | .count list s count => Delivers S E list.fileid 0 card s (content list s) → count = 0
  | .read _ _ => True

/-! ### One file -/

section File

variable {m : Mem} {file : List Byte} {withAct : Bool}

theorem entrySize_pos (withAct : Bool) : 0 < entrySize withAct := by
  cases withAct <;> decide

/-- A complete entry of a file that the buffer holds. -/
theorem entryAt_eq (h : Holds m 0 file) {i : ℕ} (hi : i * entrySize withAct + entrySize withAct ≤ file.length) :
    entryAt m withAct (i * entrySize withAct) = entryOf withAct (file.drop (i * entrySize withAct)) := by
  have hget : ∀ (k : ℕ) (p : ℤ), k < entrySize withAct → p = i * entrySize withAct + k →
      m p = (file.drop (i * entrySize withAct)).getD k 0 := by
    rintro k p hk rfl
    have hk' := h.getD_eq (i := i * entrySize withAct + k) (by omega)
    have hp : (0 : ℤ) + ((i * entrySize withAct + k : ℕ) : ℤ) = i * entrySize withAct + k := by
      push_cast
      ring
    rw [hp] at hk'
    rw [hk', List.getD_eq_getElem?_getD, List.getD_eq_getElem?_getD, List.getElem?_drop]
  have h0 := hget 0 (i * entrySize withAct) (entrySize_pos withAct) (add_zero _).symm
  have h1 := hget 1 (i * entrySize withAct + 1) (by cases withAct <;> decide) rfl
  have h2 := hget 2 (i * entrySize withAct + 2) (by cases withAct <;> decide) rfl
  rw [entryAt, entryOf, h0, h1, h2]
  cases withAct with
  | true =>
    have h3 := hget 3 (i * entrySize true + 3) (by decide) rfl
    have h4 := hget 4 (i * entrySize true + 3 + 1) (by decide) (add_assoc _ _ _)
    rw [u16, h3, h4]
  | false => rfl

/-- What the loop has listed: the entries in the table, their number, and the
count that has grown by it. -/
structure Listed (count : ℤ) (es : List PlmnEntry) (st : Listing) : Prop where
  j : st.j = es.length
  count : st.count = count + es.length
  table : ∀ k e, es[k]? = some e → st.table k = e

theorem Listed.round {count : ℤ} {es : List PlmnEntry} {st : Listing} (h : Listed count es st) {i : ℕ} :
    Listed count (es ++ [entryAt m withAct (i * entrySize withAct)].filter fun e => e.plmn ≠ Plmn.free)
      (listRound m withAct i st) := by
  rw [listRound]
  by_cases hfree : (entryAt m withAct (i * entrySize withAct)).plmn = Plmn.free
  · simp only [hfree, ne_eq, not_true, if_false, decide_false, List.filter_cons, Bool.false_eq_true, List.filter_nil,
      List.append_nil]
    exact h
  · simp only [hfree, ne_eq, not_false_eq_true, if_true, decide_true, List.filter_cons, List.filter_nil]
    refine ⟨?_, ?_, fun k e hk => ?_⟩
    · rw [List.length_append, h.j, List.length_singleton]
    · rw [List.length_append, h.count, List.length_singleton]
      push_cast
      ring
    · rw [List.getElem?_append] at hk
      split at hk
      · next hlt =>
        have hne : k ≠ st.j := h.j ▸ hlt.ne
        simp only [Function.update_of_ne hne]
        exact h.table k e hk
      · next hge =>
        obtain ⟨hk0, rfl⟩ := List.getElem?_eq_some_iff.mp hk
        have hkj : k = st.j := by
          rw [h.j]
          rw [List.length_singleton] at hk0
          omega
        simp only [hkj, Function.update_self, List.getElem_singleton]

/-- The loop lists the entries of the file that the buffer holds. -/
theorem listed_loop (h : Holds m 0 file) (count : ℤ) (table : ℕ → PlmnEntry) :
    Listed count ((completeEntries withAct file).filter fun e => e.plmn ≠ Plmn.free)
      (loop (file.length / entrySize withAct) (listRound m withAct) ⟨0, count, table⟩) := by
  have key : ∀ n, n ≤ file.length / entrySize withAct →
      Listed count (((List.range n).map fun i => entryOf withAct (file.drop (i * entrySize withAct))).filter
        fun e => e.plmn ≠ Plmn.free) (loop n (listRound m withAct) ⟨0, count, table⟩) := by
    intro n
    induction n with
    | zero => exact fun _ => ⟨rfl, by simp [loop_zero], fun k e hk => by simp at hk⟩
    | succ n ih =>
      intro hn
      have hfit : n * entrySize withAct + entrySize withAct ≤ file.length := by
        have hmul := Nat.mul_le_of_le_div _ _ _ hn
        rw [Nat.succ_mul] at hmul
        exact hmul
      rw [loop_succ, List.range_succ, List.map_append, List.filter_append, List.map_singleton, ← entryAt_eq h hfit]
      exact (ih (by omega)).round
  exact key _ le_rfl

theorem length_completeEntries (withAct : Bool) (file : List Byte) :
    (completeEntries withAct file).length = file.length / entrySize withAct := by
  rw [completeEntries, List.length_map, List.length_range]

/-- The table has room for the entries. -/
theorem length_listed_le (withAct : Bool) (file : List Byte) : (listed withAct file).length ≤ plmnMaxCount := by
  have hle : (listed withAct file).length ≤ (file.take plmnMaxLength.toNat).length / entrySize withAct := by
    rw [← length_completeEntries]
    exact List.length_filter_le _ _
  have htake : (file.take plmnMaxLength.toNat).length ≤ 300 := List.length_take_le _ _
  have hdiv : (file.take plmnMaxLength.toNat).length / entrySize withAct ≤ 100 := by
    cases withAct <;> simp only [entrySize, if_true, if_false, Bool.false_eq_true] <;> omega
  exact hle.trans hdiv

end File

/-! ### One call -/

section Call

variable {S : Sim} {E : Env} {σ : Type} {card : σ → Apdu → σ × Resp} {content : PlmnList → σ → List Byte}
  {list : PlmnList} {s : σ} {table : ℕ → PlmnEntry} {count : ℤ}

/-- The count of a file that is delivered. -/
theorem val_readCount_of_delivers {file : List Byte} (h : Delivers S E list.fileid 0 card s file) :
    ∃ table', (run card (list.readCount S E table count) s).val =
        some (0, count + (listed list.withAct file).length, table') ∧
      ∀ k e, (listed list.withAct file)[k]? = some e → table' k = e := by
  obtain ⟨buf, hbuf, -, t, hval⟩ := h.val_bind 0 E.heap fun out =>
    if out.ret < 0 then pure (out.ret, count, table)
    else
      let len := if out.len > plmnMaxLength then plmnMaxLength else out.len
      let st := loop (len.toNat / entrySize list.withAct) (listRound out.buf list.withAct) ⟨0, count, table⟩
      pure (0, st.count, st.table)
  have hlen : (if (file.length : ℤ) > plmnMaxLength then plmnMaxLength else (file.length : ℤ)).toNat =
      (file.take plmnMaxLength.toNat).length := by
    rw [List.length_take, plmnMaxLength]
    by_cases hgt : (file.length : ℤ) > 300
    · rw [if_pos hgt]
      omega
    · rw [if_neg hgt]
      omega
  have hfirst : Holds buf 0 (file.take plmnMaxLength.toNat) := by
    rw [← List.take_append_drop plmnMaxLength.toNat file, holds_append] at hbuf
    exact hbuf.1
  have hloop := @listed_loop buf _ list.withAct hfirst count table
  rw [PlmnList.readCount_eq, listCount, hval, if_neg (lt_irrefl _)]
  simp only [hlen, run_pure]
  refine ⟨_, ?_, hloop.table⟩
  rw [hloop.count]
  rfl

/-- A count whose reading fails. -/
theorem val_readCount_of_fails (h : ReadFails S E list.fileid 0 card s) :
    ∃ ret < 0, (run card (list.readCount S E table count) s).val = some (ret, count, table) := by
  obtain ⟨out, hval, hret⟩ := h 0 E.heap
  refine ⟨out.ret, hret, ?_⟩
  rw [PlmnList.readCount_eq, listCount, run_bind, hval]
  simp only [hret, if_true, run_pure]

/-- The entries of the last count are in the table, and the count is their number. -/
def TablesRight (content : PlmnList → σ → List Byte) (t : PlmnTables σ) : Prop :=
  ∀ list n s, t.last list = some (n, s) →
    n = (listed list.withAct (content list s)).length ∧
      ∀ k e, (listed list.withAct (content list s))[k]? = some e → t.table list k = e

variable (hcard : KeepsLists S E card content)
include hcard

/-- A call that meets the condition keeps the tables right. -/
theorem tablesRight_step {t : PlmnTables σ} (call : ListCall σ) (h : TablesRight content t)
    (hg : StartsAtZero S E card content t call) : TablesRight content (listStep S E card t call).1 := by
  cases call with
  | read list count => exact h
  | count list s count =>
    rcases hcard list s with hd | hf
    · obtain ⟨table', hval, htable⟩ := val_readCount_of_delivers hd
      have hzero : count = 0 := hg hd
      rw [listStep, hval]
      intro list' n s' hlast
      simp only [if_true] at hlast ⊢
      by_cases heq : list' = list
      · subst heq
        rw [Function.update_self, Option.some.injEq, Prod.mk.injEq] at hlast
        obtain ⟨rfl, rfl⟩ := hlast
        rw [Function.update_self, hzero, zero_add]
        exact ⟨rfl, htable⟩
      · rw [Function.update_of_ne heq] at hlast ⊢
        exact h list' n s' hlast
    · obtain ⟨ret, hret, hval⟩ := val_readCount_of_fails hf
      rw [listStep, hval]
      simp only [hret.ne, if_false, Function.update_eq_self]
      exact h

/-- The answer to a call is right exactly if it meets the condition. -/
theorem listRight_iff {t : PlmnTables σ} (call : ListCall σ) (h : TablesRight content t) :
    ListRight content call (listStep S E card t call).2 ↔ StartsAtZero S E card content t call := by
  cases call with
  | read list count =>
    refine iff_of_true (fun s hlast => ?_) trivial
    obtain ⟨hcount, htable⟩ := h list count s hlast
    have hle := length_listed_le list.withAct (content list s)
    rw [PlmnList.readEntries_eq, listEntries, if_pos (by omega), hcount, Int.toNat_natCast, Option.some.injEq]
    refine List.ext_getElem (by simp) fun k hk hk' => ?_
    rw [List.getElem_map, List.getElem_range]
    exact htable k _ (List.getElem?_eq_getElem hk')
  | count list s count =>
    rcases hcard list s with hd | hf
    · obtain ⟨table', hval, -⟩ := val_readCount_of_delivers hd
      rw [listStep, hval, ListRight, StartsAtZero]
      constructor
      · intro hr _
        have hcount := hr _ rfl
        omega
      · intro hg count' he
        rw [hg hd, zero_add] at he
        exact (congrArg Prod.snd (Option.some.inj he)).symm
    · obtain ⟨ret, hret, hval⟩ := val_readCount_of_fails hf
      rw [listStep, hval, ListRight, StartsAtZero]
      refine iff_of_true (fun count' he => ?_) fun hd => absurd hf hd.not_readFails
      exact absurd (congrArg Prod.fst (Option.some.inj he)) hret.ne

end Call

/-- The library before the first call. -/
def PlmnTables.initial (σ : Type) (table : PlmnList → ℕ → PlmnEntry) : PlmnTables σ := ⟨table, fun _ => none⟩

/-- **In which runs the lists are counted and read as they are.** Whatever the
tables hold at first, every answer is right exactly if every count of a file
that is delivered is called with `0`. -/
theorem lists_iff {S : Sim} {E : Env} {σ : Type} {card : σ → Apdu → σ × Resp} {content : PlmnList → σ → List Byte}
    (hcard : KeepsLists S E card content) (table : PlmnList → ℕ → PlmnEntry) (calls : List (ListCall σ)) :
    (∀ p ∈ Machine.outs (listStep S E card) (.initial σ table) calls, ListRight content p.1 p.2) ↔
      Machine.Guarded (listStep S E card) (StartsAtZero S E card content) (.initial σ table) calls :=
  Machine.outs_iff_guarded (I := TablesRight content) (fun _ call h hg => tablesRight_step hcard call h hg)
    (fun _ call h => listRight_iff hcard call h) calls fun _ _ _ hlast => by simp [PlmnTables.initial] at hlast

theorem keepsLists_romCard : KeepsLists fiveByteAid plainEnv (romCard (n := 253)) fun _ s => s.1 :=
  fun _ s => .inl (delivers_romCard rfl le_rfl s rfl _ _)

/-- The forbidden PLMNs are counted, counted again after the list has shrunk,
and read. -/
theorem lists_iff_shrunk :
    let two : {l : List Byte // l.length ≤ 253} := ⟨[0x21, 0xf3, 0x54, 0xff, 0xff, 0xff, 0x62, 0xf2, 0x10], by decide⟩
    let one : {l : List Byte // l.length ≤ 253} := ⟨[0xff, 0xff, 0xff, 0x62, 0xf2, 0x10], by decide⟩
    let calls : List (ListCall _) := [.count .forbidden two 0, .count .forbidden one 0, .read .forbidden 1]
    ∀ p ∈ Machine.outs (listStep fiveByteAid plainEnv romCard) (.initial _ fun _ _ => ⟨⟨0, 0, 0⟩, none⟩) calls,
      ListRight (fun _ s => s.1) p.1 p.2 := by
  intro two one calls
  exact (lists_iff keepsLists_romCard (fun _ _ => ⟨⟨0, 0, 0⟩, none⟩) calls).mpr
    ⟨fun _ => rfl, fun _ => rfl, trivial, trivial⟩

/-- A count that is called with `1` for a list of one entry gives `2`. -/
theorem count_not_reset :
    let one : {l : List Byte // l.length ≤ 253} := ⟨[0x21, 0xf3, 0x54], by decide⟩
    (listed false one.1).length = 1 ∧
      (run romCard (PlmnList.forbidden.readCount fiveByteAid plainEnv (fun _ => ⟨⟨0, 0, 0⟩, none⟩) 1) one).val.map
        (fun r => (r.1, r.2.1)) = some (0, 2) ∧
      ¬ ∀ p ∈ Machine.outs (listStep fiveByteAid plainEnv romCard) (.initial _ fun _ _ => ⟨⟨0, 0, 0⟩, none⟩)
        [.count .forbidden one 1], ListRight (fun _ s => s.1) p.1 p.2 := by
  intro one
  have hone : (listed false one.1).length = 1 := by decide
  obtain ⟨table', hval, -⟩ := val_readCount_of_delivers
    (delivers_romCard (S := fiveByteAid) (E := plainEnv) rfl le_rfl one rfl _ _)
  have hval' : (run romCard (PlmnList.forbidden.readCount fiveByteAid plainEnv (fun _ => ⟨⟨0, 0, 0⟩, none⟩) 1) one).val =
      some (0, 2, table') := by
    rw [hval]
    exact congrArg (fun n : ℕ => some ((0 : ℤ), 1 + (n : ℤ), table')) hone
  refine ⟨hone, by rw [hval']; rfl, fun h => ?_⟩
  have hanswer : ListRight (fun _ s => s.1) (.count .forbidden one 1)
      (listStep fiveByteAid plainEnv romCard (.initial _ fun _ _ => ⟨⟨0, 0, 0⟩, none⟩) (.count .forbidden one 1)).2 :=
    h _ List.mem_cons_self
  rw [listStep] at hanswer
  simp only [PlmnTables.initial, hval'] at hanswer
  have htwo : (2 : ℤ) = ((listed false one.1).length : ℤ) := hanswer 2 rfl
  rw [hone] at htwo
  exact absurd htwo (by decide)

end Usim
end La12xx
