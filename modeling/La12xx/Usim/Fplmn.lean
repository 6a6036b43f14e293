/-
# The forbidden PLMNs

EF_FPLMN is a table of three-byte entries, free where it holds `FFFFFF`.
`vtq_usim_delete_forbidden_plmns` rewrites the table without the listed
entries; `vtq_usim_append_forbidden_plmns` writes its entries over the last
slots of the table, free or not. As a set the table is what it should be after
an append exactly when what stood in these slots is not lost with them
(`Spared`).
-/
import La12xx.Usim.Files
import La12xx.Usim.Library

namespace La12xx
namespace Usim

open ByteMem Dialogue

/-! ### The table -/

/-- The free entry, `FFFFFF`. -/
def Plmn.free : Plmn := ⟨0xff, 0xff, 0xff⟩

/-- The table as it lies in the file. -/
def tableBytes (entries : List Plmn) : List Byte := entries.flatMap Plmn.bytes

/-- The PLMNs of a table. -/
def plmnSet (entries : List Plmn) : Set Plmn := {p | p ∈ entries ∧ p ≠ Plmn.free}

@[simp] theorem length_tableBytes : ∀ entries : List Plmn, (tableBytes entries).length = 3 * entries.length
  | [] => rfl
  | p :: entries => by
    have ih := length_tableBytes entries
    simp only [tableBytes, List.flatMap_cons, List.length_append, List.length_cons] at ih ⊢
    rw [ih, Plmn.bytes]
    simp only [List.length_cons, List.length_nil]
    omega

/-- The entries of a file, three bytes each. -/
def table : List Byte → List Plmn
  | b0 :: b1 :: b2 :: rest => ⟨b0, b1, b2⟩ :: table rest
  | _ => []

theorem table_tableBytes : ∀ entries : List Plmn, table (tableBytes entries) = entries
  | [] => rfl
  | p :: entries => congrArg (p :: ·) (table_tableBytes entries)

/-- A content of `3n` bytes is a table of `n` entries. -/
theorem tableBytes_table : ∀ {n : ℕ} {content : List Byte}, content.length = 3 * n →
    tableBytes (table content) = content ∧ (table content).length = n
  | 0, [], _ => ⟨rfl, rfl⟩
  | n + 1, b0 :: b1 :: b2 :: rest, h => by
    have hrest : rest.length = 3 * n := by
      simp only [List.length_cons] at h
      omega
    obtain ⟨hbytes, hlen⟩ := tableBytes_table hrest
    exact ⟨congrArg (fun l => b0 :: b1 :: b2 :: l) hbytes, congrArg (· + 1) hlen⟩

theorem plmnSet_append (es es' : List Plmn) : plmnSet (es ++ es') = plmnSet es ∪ plmnSet es' := by
  ext p
  simp only [plmnSet, Set.mem_ofPred_eq, List.mem_append, Set.mem_union]
  tauto

theorem tableBytes_append (es es' : List Plmn) : tableBytes (es ++ es') = tableBytes es ++ tableBytes es' :=
  List.flatMap_append

/-- Three bytes are those of one PLMN. -/
theorem Plmn.bytes_inj {p q : Plmn} (h : p.bytes = q.bytes) : p = q := by
  simp only [Plmn.bytes, List.cons.injEq, and_true] at h
  obtain ⟨h0, h1, h2⟩ := h
  cases p
  cases q
  simp_all

/-- A table written over the end of another one. -/
theorem overwrite_tableBytes (entries new : List Plmn) (h : new.length ≤ entries.length) :
    overwrite (tableBytes entries) (3 * (entries.length - new.length)) (tableBytes new) =
      tableBytes (entries.take (entries.length - new.length) ++ new) := by
  have hsplit : tableBytes entries = tableBytes (entries.take (entries.length - new.length)) ++
      tableBytes (entries.drop (entries.length - new.length)) := by
    rw [← tableBytes_append, List.take_append_drop]
  have hlen : (tableBytes (entries.take (entries.length - new.length))).length =
      3 * (entries.length - new.length) := by
    rw [length_tableBytes, List.length_take_of_le (by omega)]
  have hall : (tableBytes entries).length = 3 * (entries.length - new.length) + (tableBytes new).length := by
    rw [length_tableBytes, length_tableBytes]
    omega
  rw [overwrite, List.drop_of_length_le hall.le, List.append_nil, hsplit, List.take_left' hlen, tableBytes_append]

/-! ### Appending -/

/-- The last slots, which `fplmn` is written over, hold nothing that is not in
the table or in `fplmn` as well. -/
def Spared (entries fplmn : List Plmn) : Prop :=
  ∀ p ∈ entries.drop (entries.length - fplmn.length), p ≠ Plmn.free →
    p ∈ entries.take (entries.length - fplmn.length) ∨ p ∈ fplmn

instance (entries fplmn : List Plmn) : Decidable (Spared entries fplmn) :=
  inferInstanceAs (Decidable (∀ p ∈ _, _))

/-- The table splits before the last slots. -/
theorem plmnSet_split (entries : List Plmn) (k : ℕ) :
    plmnSet entries = plmnSet (entries.take k) ∪ plmnSet (entries.drop k) := by
  rw [← plmnSet_append, List.take_append_drop]

theorem spared_iff (entries fplmn : List Plmn) : Spared entries fplmn ↔
    plmnSet (entries.drop (entries.length - fplmn.length)) ⊆
      plmnSet (entries.take (entries.length - fplmn.length)) ∪ plmnSet fplmn := by
  constructor
  · rintro h p ⟨hp, hfree⟩
    rcases h p hp hfree with h | h
    · exact .inl ⟨h, hfree⟩
    · exact .inr ⟨h, hfree⟩
  · intro h p hp hfree
    rcases h ⟨hp, hfree⟩ with h | h
    · exact .inl h.1
    · exact .inr h.1

/-- Writing over the last slots adds to the set exactly when they are spared. -/
theorem plmnSet_appended_iff (entries fplmn : List Plmn) :
    plmnSet (entries.take (entries.length - fplmn.length) ++ fplmn) = plmnSet entries ∪ plmnSet fplmn ↔
      Spared entries fplmn := by
  rw [spared_iff, plmnSet_append, plmnSet_split entries (entries.length - fplmn.length), Set.union_right_comm,
    eq_comm, Set.union_eq_left]

/-- Deleting what was appended gives the set back exactly when the last slots
were spared. -/
theorem plmnSet_restored_iff {entries fplmn : List Plmn} (hnew : ∀ p ∈ fplmn, p ∉ plmnSet entries) :
    plmnSet (entries.take (entries.length - fplmn.length) ++ fplmn) \ {p | p ∈ fplmn} = plmnSet entries ↔
      Spared entries fplmn := by
  have hsplit := plmnSet_split entries (entries.length - fplmn.length)
  have hkept : plmnSet (entries.take (entries.length - fplmn.length) ++ fplmn) \ {p | p ∈ fplmn} =
      plmnSet (entries.take (entries.length - fplmn.length)) := by
    rw [plmnSet_append]
    ext p
    simp only [Set.mem_sdiff, Set.mem_union, Set.mem_ofPred_eq]
    constructor
    · rintro ⟨h | h, hp⟩
      · exact h
      · exact absurd h.1 hp
    · intro h
      exact ⟨.inl h, fun hp => hnew p hp (hsplit ▸ .inl h)⟩
  rw [hkept, spared_iff, eq_comm, hsplit, Set.union_eq_left]
  constructor
  · intro h p hp
    exact .inl (h hp)
  · intro h p hp
    rcases h hp with h | h
    · exact h
    · exact absurd (hsplit ▸ .inr hp) (hnew p h.1)

/-! ### Deleting -/

/-- An entry without the PLMN. -/
def Plmn.clear (p e : Plmn) : Plmn := if e = p then Plmn.free else e

theorem tableBytes_cons (e : Plmn) (es : List Plmn) : tableBytes (e :: es) = e.bytes ++ tableBytes es := rfl

/-- The test and the overwriting of one entry. -/
theorem clear_holds {buffer : Mem} {pre rest : List Plmn} {e : Plmn} (p : Plmn) {j : ℤ} (hj : j = 3 * pre.length)
    (h : Holds buffer 0 (tableBytes (pre ++ e :: rest))) :
    Holds (if bytes buffer j 3 = p.bytes then put buffer j [0xff, 0xff, 0xff] else buffer) 0
      (tableBytes (pre ++ p.clear e :: rest)) := by
  rw [tableBytes_append, tableBytes_cons] at h ⊢
  have hj' : j = 0 + (tableBytes pre).length := by
    rw [length_tableBytes]
    push_cast
    omega
  have hentry : bytes buffer j 3 = e.bytes := by
    rw [holds_append, holds_append, ← hj'] at h
    exact h.2.1.bytes_eq rfl
  rw [hentry]
  by_cases he : e = p
  · rw [if_pos (congrArg Plmn.bytes he), Plmn.clear, if_pos he]
    have hlen : Plmn.free.bytes.length = e.bytes.length := rfl
    exact h.put_replace hlen hj'
  · rw [if_neg fun hb => he (Plmn.bytes_inj hb), Plmn.clear, if_neg he]
    exact h

/-- The inner loop clears every entry that is the PLMN. -/
theorem deleteEntry_holds (p : Plmn) (len : ℤ) : ∀ (rest pre : List Plmn) (fuel : ℕ) (buffer : Mem),
    rest.length ≤ fuel → len = 3 * (pre ++ rest).length → Holds buffer 0 (tableBytes (pre ++ rest)) →
    Holds (deleteEntry p len fuel (3 * pre.length) buffer) 0 (tableBytes (pre ++ rest.map p.clear))
  | [], pre, 0, buffer, _, _, h => h
  | [], pre, fuel + 1, buffer, _, hlen, h => by
    rw [List.append_nil] at hlen
    rw [deleteEntry, if_neg (by omega)]
    exact h
  | e :: rest, pre, fuel + 1, buffer, hfuel, hlen, h => by
    rw [List.length_append, List.length_cons] at hlen
    push_cast at hlen
    rw [deleteEntry, if_pos (by omega)]
    have hnext := clear_holds p rfl h
    rw [List.append_cons] at hnext
    have ih := deleteEntry_holds p len rest (pre ++ [p.clear e]) fuel _ (Nat.le_of_succ_le_succ hfuel)
      (by simp only [List.length_append, List.length_singleton]; push_cast; omega) hnext
    have hj : (3 * (pre ++ [p.clear e]).length : ℤ) = 3 * pre.length + 3 := by
      rw [List.length_append, List.length_singleton]
      push_cast
      ring
    rw [List.append_assoc, List.singleton_append] at ih
    rw [← hj]
    exact ih

/-- A table without the listed PLMNs. -/
def cleared (entries fplmn : List Plmn) : List Plmn := fplmn.foldl (fun es p => es.map p.clear) entries

theorem length_cleared (fplmn : List Plmn) : ∀ entries, (cleared entries fplmn).length = entries.length := by
  induction fplmn with
  | nil => intro entries; rfl
  | cons p fplmn ih =>
    intro entries
    rw [cleared, List.foldl_cons]
    exact (ih _).trans (List.length_map _)

/-- The outer loop clears the listed PLMNs. -/
theorem delete_holds (len : ℤ) : ∀ (fplmn entries : List Plmn) (buffer : Mem), len = 3 * entries.length →
    Holds buffer 0 (tableBytes entries) →
    Holds (fplmn.foldl (fun buffer p => deleteEntry p len len.toNat 0 buffer) buffer) 0
      (tableBytes (cleared entries fplmn))
  | [], _, _, _, h => h
  | p :: fplmn, entries, buffer, hlen, h => by
    have hp := deleteEntry_holds p len entries [] len.toNat buffer (by omega) hlen h
    exact delete_holds len fplmn (entries.map p.clear) _ (by rw [List.length_map, hlen]) hp

/-- What is left after deleting. -/
theorem plmnSet_cleared : ∀ (fplmn entries : List Plmn),
    plmnSet (cleared entries fplmn) = plmnSet entries \ {p | p ∈ fplmn}
  | [], entries => by simp [cleared]
  | p :: fplmn, entries => by
    have hstep : plmnSet (entries.map p.clear) = plmnSet entries \ {p} := by
      ext q
      simp only [plmnSet, Set.mem_ofPred_eq, List.mem_map, Set.mem_sdiff, Set.mem_singleton_iff, Plmn.clear]
      constructor
      · rintro ⟨⟨e, he, rfl⟩, hq⟩
        by_cases hep : e = p
        · rw [if_pos hep] at hq
          exact absurd rfl hq
        · rw [if_neg hep] at hq ⊢
          exact ⟨⟨he, hq⟩, hep⟩
      · rintro ⟨⟨he, hq⟩, hqp⟩
        exact ⟨⟨q, he, if_neg hqp⟩, hq⟩
    show plmnSet (cleared (entries.map p.clear) fplmn) = _
    rw [plmnSet_cleared fplmn, hstep]
    ext q
    simp only [Set.mem_sdiff, Set.mem_singleton_iff, Set.mem_ofPred_eq, List.mem_cons]
    tauto

/-! ### On a card that keeps the file -/

section Card

variable {S : Sim} {σ : Type} {card : σ → Apdu → σ × Resp} (F : TransparentFile S fplmnFileid card)

/-- The file holds the table, and the application is selected. -/
structure TableAt (s : σ) (entries : List Plmn) : Prop where
  inApp : F.inApp s
  content : F.content s = tableBytes entries

variable {F}

/-- One update of the file, as both functions send it. -/
theorem run_updateBinary {s : σ} (hat : F.atFile s) {data : List Byte} {buf : Mem} {len : ℤ} (hbuf : Holds buf 0 data)
    (hlen : len = data.length) (h251 : data.length ≤ 251) {offLow : Byte}
    (hoff : offLow.toNat + data.length ≤ (F.content s).length) :
    let o := run card (do let resp ← updateBinary S len buf 0 offLow; pure (updateResult resp)) s
    o.val ≠ none ∧ F.inApp o.state ∧ F.content o.state = overwrite (F.content s) offLow.toNat data := by
  have hdata : commandData buf len = pure data := by
    rw [commandData, if_pos (by omega), hbuf.bytes_eq (by omega)]
  have hzero : (0 : Byte).toNat * 256 + offLow.toNat = offLow.toNat := by simp
  obtain ⟨-, -, hat', hcont⟩ := F.update s 0 offLow data hat (by rw [hzero]; exact hoff)
  rw [hzero] at hcont
  have hrun : updateBinary S len buf 0 offLow = sendReceiveAPDU (updateBinaryCmd S 0 offLow data) := by
    rw [updateBinary, hdata]
    rfl
  rw [hrun]
  exact ⟨by simp [sendReceiveAPDU, run_query_bind], F.inApp_of_atFile _ hat', hcont⟩

/-- An append that returns `0` has written its entries over the last slots. -/
theorem run_append {E : Env} {s : σ} {entries : List Plmn} (h : TableAt F s entries) (h251 : 3 * entries.length ≤ 251)
    {fplmn : List Plmn} (hcount : fplmn.length ≤ entries.length)
    (hval : (run card (appendForbiddenPlmns S E fplmn) s).val = some 0) :
    TableAt F (run card (appendForbiddenPlmns S E fplmn) s).state
      (entries.take (entries.length - fplmn.length) ++ fplmn) := by
  obtain ⟨hat, hcont, out, hout, hread⟩ := run_readTransparent F (E := E) h.inApp 0 E.heap
  rw [h.content] at hcont hread
  rw [appendForbiddenPlmns, run_bind, hout] at hval ⊢
  by_cases hm : E.malloc ((tableBytes entries).length + 3)
  · rw [if_pos hm] at hread
    obtain ⟨hret, hlen, -⟩ := hread
    have hdata : (fplmn.flatMap Plmn.bytes).length = 3 * fplmn.length := length_tableBytes fplmn
    have hoff : (BitVec.ofInt 8 (out.len - 3 * fplmn.length)).toNat = 3 * (entries.length - fplmn.length) := by
      rw [BitVec.toNat_ofInt, hlen, length_tableBytes]
      push_cast
      omega
    obtain ⟨-, happ, hnew⟩ := run_updateBinary (S := S) hat (holds_ofList (fplmn.flatMap Plmn.bytes)) rfl (by omega)
      (by rw [hoff, hdata, hcont, length_tableBytes]; omega)
    rw [hoff, hcont] at hnew
    simp only [hret, lt_irrefl, if_false, hdata, not_lt.mpr (by omega : 3 * fplmn.length ≤ 256)]
    rw [hdata] at happ hnew
    exact ⟨happ, hnew.trans (overwrite_tableBytes entries fplmn hcount)⟩
  · rw [if_neg hm] at hread
    simp [hread] at hval

/-- A delete that returns `0` has cleared the listed entries. -/
theorem run_delete {E : Env} {s : σ} {entries : List Plmn} (h : TableAt F s entries) (h251 : 3 * entries.length ≤ 251)
    {fplmn : List Plmn} (hval : (run card (deleteForbiddenPlmns S E fplmn) s).val = some 0) :
    TableAt F (run card (deleteForbiddenPlmns S E fplmn) s).state (cleared entries fplmn) := by
  obtain ⟨hat, hcont, out, hout, hread⟩ := run_readTransparent F (E := E) h.inApp 0 E.heap
  rw [h.content] at hcont hread
  rw [deleteForbiddenPlmns, run_bind, hout] at hval ⊢
  by_cases hm : E.malloc ((tableBytes entries).length + 3)
  · rw [if_pos hm] at hread
    obtain ⟨hret, hlen, hbuf⟩ := hread
    rw [length_tableBytes] at hlen
    push_cast at hlen
    have hnewbuf := delete_holds out.len fplmn entries out.buf hlen hbuf
    have hnewlen : (tableBytes (cleared entries fplmn)).length = 3 * entries.length := by
      rw [length_tableBytes, length_cleared]
    have hout : out.len = ((tableBytes (cleared entries fplmn)).length : ℤ) := by
      rw [hnewlen, hlen]
      push_cast
      rfl
    have hfits : (0 : Byte).toNat + (tableBytes (cleared entries fplmn)).length ≤
        (F.content (run card (readTransparent S E fplmnFileid 0 E.heap 0) s).state).length := by
      rw [hnewlen, hcont, length_tableBytes]
      simp
    obtain ⟨-, happ, hnew⟩ := run_updateBinary (S := S) hat hnewbuf hout (by omega) hfits
    simp only [hret, lt_irrefl, if_false]
    refine ⟨happ, hnew.trans ?_⟩
    rw [hcont]
    simp [overwrite, List.drop_of_length_le, hnewlen]
  · rw [if_neg hm] at hread
    simp [hread] at hval

/-- The set of PLMNs in the file. -/
def TransparentFile.plmns (F : TransparentFile S fplmnFileid card) (s : σ) : Set Plmn := plmnSet (table (F.content s))

theorem TableAt.plmns {s : σ} {entries : List Plmn} (h : TableAt F s entries) : F.plmns s = plmnSet entries := by
  rw [TransparentFile.plmns, h.content, table_tableBytes]

/-- **The forbidden PLMNs as a set.** On every card that keeps the file, with
any table of `3n` bytes: a delete that succeeds takes the listed PLMNs out of
the set and nothing else. An append that succeeds into a table with as many
free slots adds its PLMNs without losing one exactly when the last slots are
spared, and so does a delete of PLMNs that were not there before the append. -/
theorem forbiddenPlmns_set (E E' : Env) {s : σ} (hs : F.inApp s) {n : ℕ} (hlen : (F.content s).length = 3 * n)
    (h251 : 3 * n ≤ 251) (fplmn : List Plmn) :
    let appended := run card (appendForbiddenPlmns S E fplmn) s
    let deleted := run card (deleteForbiddenPlmns S E fplmn) s
    let restored := run card (deleteForbiddenPlmns S E' fplmn) appended.state
    (appended.val = some 0 → fplmn.length ≤ (table (F.content s)).count Plmn.free →
      (F.plmns appended.state = F.plmns s ∪ plmnSet fplmn ↔ Spared (table (F.content s)) fplmn)) ∧
    (deleted.val = some 0 → F.plmns deleted.state = F.plmns s \ {p | p ∈ fplmn}) ∧
    (appended.val = some 0 → restored.val = some 0 → fplmn.length ≤ (table (F.content s)).count Plmn.free →
      (∀ p ∈ fplmn, p ∉ F.plmns s) →
      (F.plmns restored.state = F.plmns s ↔ Spared (table (F.content s)) fplmn)) := by
  obtain ⟨hbytes, hcount⟩ := tableBytes_table hlen
  have hat : TableAt F s (table (F.content s)) := ⟨hs, hbytes.symm⟩
  have hfits : 3 * (table (F.content s)).length ≤ 251 := by rw [hcount]; exact h251
  refine ⟨fun hval hfree => ?_, fun hval => ?_, fun hval hval' hfree hnew => ?_⟩
  · have happ := run_append hat hfits (hfree.trans List.count_le_length) hval
    rw [happ.plmns]
    exact plmnSet_appended_iff _ _
  · have hdel := run_delete hat hfits hval
    rw [hdel.plmns]
    exact plmnSet_cleared fplmn _
  · have hc := hfree.trans List.count_le_length
    have happ := run_append hat hfits hc hval
    have hdel := run_delete happ (by rw [List.length_append, List.length_take]; omega) hval'
    rw [hdel.plmns, plmnSet_cleared]
    exact plmnSet_restored_iff hnew

end Card

/-- Two PLMNs. -/
def oldPlmn : Plmn := ⟨0x12, 0xf4, 0x10⟩

def newPlmn : Plmn := ⟨0x62, 0xf2, 0x10⟩

/-- One PLMN is appended behind another one, and then deleted. -/
theorem forbiddenPlmns_set_freeLast :
    let F := binaryFile (S := fiveByteAid) rfl fplmnFileid
    let appended := run binaryCard (appendForbiddenPlmns fiveByteAid plainEnv [newPlmn])
      (tableBytes [oldPlmn, Plmn.free])
    let restored := run binaryCard (deleteForbiddenPlmns fiveByteAid plainEnv [newPlmn]) appended.state
    F.plmns appended.state = F.plmns (tableBytes [oldPlmn, Plmn.free]) ∪ plmnSet [newPlmn] ∧
      F.plmns restored.state = F.plmns (tableBytes [oldPlmn, Plmn.free]) := by
  intro F appended restored
  have happ : F.inApp (tableBytes [oldPlmn, Plmn.free]) := Nat.le_of_ble_eq_true rfl
  obtain ⟨happend, -, hrestore⟩ := forbiddenPlmns_set plainEnv plainEnv (n := 2) happ rfl (by decide) [newPlmn]
  have hval : appended.val = some 0 := by decide +kernel
  have hval' : restored.val = some 0 := by decide +kernel
  have hnew : ∀ p ∈ [newPlmn], p ∉ F.plmns (tableBytes [oldPlmn, Plmn.free]) := by
    rintro p hp ⟨hold, -⟩
    rw [List.mem_singleton.mp hp] at hold
    exact absurd hold (by decide)
  exact ⟨(happend hval (by decide)).mpr (by decide), (hrestore hval hval' (by decide) hnew).mpr (by decide)⟩

/-- With the free slot in front, the PLMN in the last slot is lost, and a
delete does not bring it back. -/
theorem append_overwrites_entry :
    let F := binaryFile (S := fiveByteAid) rfl fplmnFileid
    let appended := run binaryCard (appendForbiddenPlmns fiveByteAid plainEnv [newPlmn])
      (tableBytes [Plmn.free, oldPlmn])
    let restored := run binaryCard (deleteForbiddenPlmns fiveByteAid plainEnv [newPlmn]) appended.state
    [newPlmn].length ≤ [Plmn.free, oldPlmn].count Plmn.free ∧ appended.val = some 0 ∧ restored.val = some 0 ∧
      oldPlmn ∈ F.plmns (tableBytes [Plmn.free, oldPlmn]) ∧ oldPlmn ∉ F.plmns appended.state ∧
      oldPlmn ∉ F.plmns restored.state := by
  intro F appended restored
  have happ : appended.state = tableBytes [Plmn.free, newPlmn] := by decide +kernel
  have hres : restored.state = tableBytes [Plmn.free, Plmn.free] := by decide +kernel
  refine ⟨by decide, by decide +kernel, by decide +kernel, ⟨by decide, by decide⟩, ?_, ?_⟩
  · rintro ⟨h, -⟩
    rw [happ] at h
    exact absurd h (by decide)
  · rintro ⟨h, -⟩
    rw [hres] at h
    exact absurd h (by decide)

end Usim
end La12xx
