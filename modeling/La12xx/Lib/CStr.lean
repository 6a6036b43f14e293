/-
# Strings that are cut up in a buffer

C takes a text apart in place: `strsep` ends a token by storing a NUL where the
delimiter was, and the functions on strings read on to the next NUL, whatever was meant
to be there. `Buf` is a buffer with a mark of how far it has been read; a read past its
end is `none`. What the functions do is said by what the buffer holds from an address on,
`u ++ 0 :: w` for the string `u`.
-/
import La12xx.Lib.ByteMem

namespace La12xx
namespace CStr

open ByteMem

/-- A buffer; the bytes from `reach` on have not been read. -/
structure Buf where
  bytes : List Byte
  reach : ℕ
deriving DecidableEq, Repr

namespace Buf

/-- The bytes below `n` are read. -/
def reads (b : Buf) (n : ℕ) : Buf := { b with reach := max b.reach n }

def store (b : Buf) (i : ℕ) (x : Byte) : Buf := { b with bytes := b.bytes.set i x }

/-- The first byte from `p` on that is NUL or one of the delimiters. -/
def strcspn (b : Buf) (delim : Byte → Bool) (p : ℕ) : Option ℕ :=
  ((b.bytes.drop p).findIdx? fun x => x == 0 || delim x).map (p + ·)

/-- `strsep` with one delimiter: the token, and where the pointer is afterwards. -/
def strsep (b : Buf) (delim : Byte) : Option ℕ → Option (Option ℕ × Option ℕ × Buf)
  | none => some (none, none, b)
  | some p => (b.strcspn (· == delim) p).map fun q =>
    if b.bytes.getD q 0 = 0 then (some p, none, b.reads (q + 1))
    else (some p, some (q + 1), (b.reads (q + 1)).store q 0)

/-- `strstr`: where `pat` first is in the string at `p`. -/
def strstr (b : Buf) (pat : List Byte) (p : ℕ) : Option (Option ℕ × Buf) :=
  (b.strcspn (fun _ => false) p).map fun z =>
    ((((b.bytes.drop p).take (z - p)).tails.findIdx? pat.isPrefixOf).map (p + ·), b.reads (z + 1))

/-- `memcpy` of `n` bytes from `p`. -/
def memcpy (b : Buf) (p n : ℕ) : Option (List Byte × Buf) :=
  if p + n ≤ b.bytes.length then some ((b.bytes.drop p).take n, b.reads (p + n)) else none

@[simp] theorem bytes_reads (b : Buf) (n : ℕ) : (b.reads n).bytes = b.bytes := rfl

@[simp] theorem reach_reads (b : Buf) (n : ℕ) : (b.reads n).reach = max b.reach n := rfl

@[simp] theorem reach_store (b : Buf) (i : ℕ) (x : Byte) : (b.store i x).reach = b.reach := rfl

theorem drop_store_of_lt (b : Buf) {i p : ℕ} (x : Byte) (h : i < p) :
    (b.store i x).bytes.drop p = b.bytes.drop p := by
  show (b.bytes.set i x).drop p = _
  rw [List.drop_set, if_pos h]

/-- A delimiter is overwritten. -/
theorem drop_store {b : Buf} {p : ℕ} {u w : List Byte} {x : Byte} (h : b.bytes.drop p = u ++ x :: w) (y : Byte) :
    (b.store (p + u.length) y).bytes.drop p = u ++ y :: w := by
  show (b.bytes.set (p + u.length) y).drop p = _
  rw [List.drop_set, if_neg (by omega), h, Nat.add_sub_cancel_left, List.set_append_right _ _ le_rfl, Nat.sub_self]
  rfl

/-- What comes after a byte that is at a known place. -/
theorem drop_add {b : Buf} {p : ℕ} {u w : List Byte} {x : Byte} (h : b.bytes.drop p = u ++ x :: w) :
    b.bytes.drop (p + u.length + 1) = w := by
  rw [add_assoc, ← List.drop_drop, h, ← List.drop_drop, List.drop_left]
  rfl

theorem getD_of_drop {b : Buf} {p : ℕ} {u w : List Byte} {x : Byte} (h : b.bytes.drop p = u ++ x :: w) :
    b.bytes.getD (p + u.length) 0 = x := by
  rw [List.getD_eq_getElem?_getD, ← List.getElem?_drop, h]
  simp

theorem length_of_drop {b : Buf} {p : ℕ} {u w : List Byte} {x : Byte} (h : b.bytes.drop p = u ++ x :: w) :
    b.bytes.length = p + u.length + 1 + w.length := by
  have hlen := congrArg List.length h
  rw [List.length_drop, List.length_append, List.length_cons] at hlen
  omega

/-! ### What has been read -/

theorem le_reach_reads (b : Buf) (n : ℕ) : b.reach ≤ (b.reads n).reach := le_max_left _ _

theorem le_reach_strsep {b : Buf} {delim : Byte} {v : Option ℕ} {r : Option ℕ × Option ℕ × Buf}
    (h : b.strsep delim v = some r) : b.reach ≤ r.2.2.reach := by
  cases v with
  | none =>
    obtain rfl := Option.some.inj h
    exact le_rfl
  | some p =>
    obtain ⟨q, -, rfl⟩ := Option.map_eq_some_iff.mp h
    split
    · exact le_reach_reads b _
    · exact le_reach_reads b _

/-- A token is read up to its end. -/
theorem lt_reach_strsep {b : Buf} {delim : Byte} {p : ℕ} {r : Option ℕ × Option ℕ × Buf}
    (h : b.strsep delim (some p) = some r) : p < r.2.2.reach := by
  obtain ⟨q, hq, rfl⟩ := Option.map_eq_some_iff.mp h
  obtain ⟨j, -, rfl⟩ := Option.map_eq_some_iff.mp hq
  have hlt : p < (b.reads (p + j + 1)).reach := lt_max_of_lt_right (by omega)
  split
  · exact hlt
  · exact hlt

theorem le_reach_strstr {b : Buf} {pat : List Byte} {p : ℕ} {r : Option ℕ × Buf} (h : b.strstr pat p = some r) :
    b.reach ≤ r.2.reach := by
  obtain ⟨z, -, rfl⟩ := Option.map_eq_some_iff.mp h
  exact le_reach_reads b _

theorem le_reach_memcpy {b : Buf} {p n : ℕ} {r : List Byte × Buf} (h : b.memcpy p n = some r) :
    b.reach ≤ r.2.reach := by
  obtain ⟨-, hr⟩ := Option.ite_none_right_eq_some.mp h
  obtain rfl := Option.some.inj hr
  exact le_reach_reads b _

/-! ### Where a string ends -/

section At

variable {b : Buf} {p : ℕ} {u w : List Byte} {x : Byte}

theorem strcspn_eq (delim : Byte → Bool) (h : b.bytes.drop p = u ++ x :: w) (hu : 0 ∉ u)
    (hd : ∀ y ∈ u, delim y = false) (hx : x = 0 ∨ delim x = true) : b.strcspn delim p = some (p + u.length) := by
  unfold strcspn
  rw [h, List.findIdx?_append, List.findIdx?_eq_none_iff.mpr]
  · rcases hx with rfl | hx
    · simp [List.findIdx?_cons]
    · simp [List.findIdx?_cons, hx]
  · intro y hy
    rw [Bool.or_eq_false_iff]
    exact ⟨beq_eq_false_iff_ne.mpr fun h0 => hu (h0 ▸ hy), hd y hy⟩

/-- The token before a delimiter. -/
theorem strsep_delim {delim : Byte} (h : b.bytes.drop p = u ++ delim :: w) (hu : 0 ∉ u) (hd : delim ∉ u)
    (h0 : delim ≠ 0) : b.strsep delim (some p) =
      some (some p, some (p + u.length + 1), (b.reads (p + u.length + 1)).store (p + u.length) 0) := by
  have hstop := strcspn_eq (· == delim) h hu
    (fun y hy => beq_eq_false_iff_ne.mpr fun he => hd (he ▸ hy)) (Or.inr (beq_self_eq_true delim))
  show (b.strcspn (· == delim) p).map _ = _
  rw [hstop, Option.map_some, getD_of_drop h, if_neg h0]

/-- The last token, which a NUL ends. -/
theorem strsep_nul {delim : Byte} (h : b.bytes.drop p = u ++ 0 :: w) (hu : 0 ∉ u) (hd : delim ∉ u) :
    b.strsep delim (some p) = some (some p, none, b.reads (p + u.length + 1)) := by
  have hstop := strcspn_eq (· == delim) h hu
    (fun y hy => beq_eq_false_iff_ne.mpr fun he => hd (he ▸ hy)) (Or.inl rfl)
  show (b.strcspn (· == delim) p).map _ = _
  rw [hstop, Option.map_some, getD_of_drop h, if_pos rfl]

/-- A string holds `pat` or not; where it is found is inside it. -/
theorem strstr_eq (h : b.bytes.drop p = u ++ 0 :: w) (hu : 0 ∉ u) (pat : List Byte) :
    ∃ r, b.strstr pat p = some (r, b.reads (p + u.length + 1)) ∧ (r = none ↔ ¬ pat <:+: u) ∧
      ∀ i ∈ r, i ≤ p + u.length := by
  have hstop := strcspn_eq (fun _ => false) h hu (fun _ _ => rfl) (Or.inl rfl)
  have htext : (b.bytes.drop p).take (p + u.length - p) = u := by
    rw [h, Nat.add_sub_cancel_left, List.take_left]
  refine ⟨(u.tails.findIdx? pat.isPrefixOf).map (p + ·), ?_, ?_, ?_⟩
  · unfold strstr
    rw [hstop, Option.map_some, htext]
  · rw [Option.map_eq_none_iff, List.findIdx?_eq_none_iff, List.infix_iff_prefix_suffix]
    simp only [List.mem_tails, Bool.eq_false_iff, ne_eq, List.isPrefixOf_iff_prefix, not_exists, not_and]
    exact ⟨fun hno t ht ht' => hno t ht' ht, fun hno t ht' ht => hno t ht ht'⟩
  · intro i hi
    obtain ⟨j, hj, rfl⟩ := Option.map_eq_some_iff.mp hi
    have hlt := (List.findIdx?_eq_some_iff_getElem.mp hj).1
    rw [List.length_tails] at hlt
    omega

theorem memcpy_eq (h : b.bytes.drop p = u ++ x :: w) {n : ℕ} (hn : n ≤ u.length + 1 + w.length) :
    b.memcpy p n = some ((u ++ x :: w).take n, b.reads (p + n)) := by
  have hlen := length_of_drop h
  unfold memcpy
  rw [if_pos (by omega), h]

end At

end Buf

/-! ### Before and after a byte -/

theorem eq_before_after {x : Byte} {t : List Byte} (h : x ∈ t) :
    t = t.takeWhile (· ≠ x) ++ x :: (t.dropWhile (· ≠ x)).tail := by
  induction t with
  | nil => exact absurd h List.not_mem_nil
  | cons c t ih =>
    by_cases hc : c = x
    · subst hc
      simp
    · have ht := ih ((List.mem_cons.mp h).resolve_left (Ne.symm hc))
      rw [List.takeWhile_cons_of_pos (by simpa using hc), List.dropWhile_cons_of_pos (by simpa using hc),
        List.cons_append, ← ht]

theorem not_mem_before (x : Byte) (t : List Byte) : x ∉ t.takeWhile (· ≠ x) := by
  intro h
  simpa using List.mem_takeWhile_imp h

/-- A text that is put together is taken apart at the same place. -/
theorem before_after_append {x : Byte} {a : List Byte} (ha : x ∉ a) (b : List Byte) :
    (a ++ x :: b).takeWhile (· ≠ x) = a ∧ ((a ++ x :: b).dropWhile (· ≠ x)).tail = b := by
  have hpos : ∀ c ∈ a, decide (c ≠ x) = true := fun c hc => decide_eq_true fun he => ha (he ▸ hc)
  rw [List.takeWhile_append_of_pos hpos, List.dropWhile_append_of_pos hpos]
  simp

/-! ### Hexadecimal numbers -/

/-- The digit `_parse_integer` reads at base 16. -/
def hexDigit (c : Byte) : Option ℕ :=
  let lc := c ||| 0x20
  if 0x30 ≤ c ∧ c ≤ 0x39 then some (c.toNat - 0x30)
  else if 0x61 ≤ lc ∧ lc ≤ 0x66 then some (lc.toNat - 0x61 + 10)
  else none

/-- The number the digits at the start of a text make, after `acc`. -/
def parseInteger : ℕ → List Byte → ℕ
  | acc, [] => acc
  | acc, c :: cs =>
    match hexDigit c with
    | none => acc
    | some d => parseInteger (acc * 16 + d) cs

/-- `_parse_integer_fixup_radix` for base 16 -/
def fixupRadix : List Byte → List Byte
  | c :: x :: cs => if c = 0x30 ∧ x ||| 0x20 = 0x78 then cs else c :: x :: cs
  | cs => cs

/-- `simple_strtoul(s, NULL, 16)` -/
def simpleStrtoul (s : List Byte) : ℕ := parseInteger 0 (fixupRadix s) % 2 ^ 64

/-- The digits at the start of a text. -/
def hexRun (s : List Byte) : List Byte := s.takeWhile fun c => (hexDigit c).isSome

/-- The number of a list of digits. -/
def hexValue (s : List Byte) : ℕ := s.foldl (fun acc c => acc * 16 + (hexDigit c).getD 0) 0

/-- A list of digits only. -/
def IsHex (s : List Byte) : Prop := ∀ c ∈ s, (hexDigit c).isSome

instance (s : List Byte) : Decidable (IsHex s) := inferInstanceAs (Decidable (∀ c ∈ s, (hexDigit c).isSome))

theorem hexDigit_lt {c : Byte} {d : ℕ} (h : hexDigit c = some d) : d < 16 := by
  have hall : ∀ c : Byte, ∀ d ∈ hexDigit c, d < 16 := by decide +kernel
  exact hall c d h

/-- No digit is taken for the `x` of a prefix. -/
theorem hexDigit_ne_x {c : Byte} (h : (hexDigit c).isSome) : c ||| 0x20 ≠ 0x78 := by
  have hall : ∀ c : Byte, (hexDigit c).isSome → c ||| 0x20 ≠ 0x78 := by decide +kernel
  exact hall c h

/-- Digits are neither NUL nor any other byte that `hexDigit` refuses. -/
theorem IsHex.not_mem {s : List Byte} (h : IsHex s) {c : Byte} (hc : hexDigit c = none) : c ∉ s := by
  intro hmem
  have hsome := h c hmem
  rw [hc] at hsome
  exact absurd hsome (by decide)

/-- Nothing is read behind a byte that is no digit. -/
theorem parseInteger_stop {x : Byte} (hx : hexDigit x = none) (w : List Byte) : ∀ (u : List Byte) (acc : ℕ),
    parseInteger acc (u ++ x :: w) = parseInteger acc u := by
  intro u
  induction u with
  | nil =>
    intro acc
    show (match hexDigit x with | none => acc | some d => parseInteger (acc * 16 + d) w) = acc
    rw [hx]
  | cons c cs ih =>
    intro acc
    show parseInteger acc (c :: (cs ++ x :: w)) = parseInteger acc (c :: cs)
    unfold parseInteger
    cases hexDigit c with
    | none => rfl
    | some d => exact ih _

/-- What is read is the run of digits. -/
theorem parseInteger_eq (s : List Byte) : ∀ acc : ℕ,
    parseInteger acc s = (hexRun s).foldl (fun acc c => acc * 16 + (hexDigit c).getD 0) acc := by
  induction s with
  | nil => exact fun _ => rfl
  | cons c cs ih =>
    intro acc
    unfold parseInteger hexRun
    cases hc : hexDigit c with
    | none => rw [List.takeWhile_cons_of_neg (by simp [hc])]; rfl
    | some d =>
      rw [List.takeWhile_cons_of_pos (by simp [hc]), List.foldl_cons, hc]
      exact ih _

theorem fixupRadix_cons (c x : Byte) (cs : List Byte) :
    fixupRadix (c :: x :: cs) = if c = 0x30 ∧ x ||| 0x20 = 0x78 then cs else c :: x :: cs := rfl

/-- A NUL ends the number. -/
theorem simpleStrtoul_nul (u w : List Byte) : simpleStrtoul (u ++ 0 :: w) = simpleStrtoul u := by
  have h0 : hexDigit 0 = none := by decide
  unfold simpleStrtoul
  congr 1
  match u with
  | [] =>
    have hfix : fixupRadix ([] ++ 0 :: w) = [] ++ 0 :: w := by
      cases w with
      | nil => rfl
      | cons x w => exact (fixupRadix_cons 0 x w).trans (if_neg fun h => absurd h.1 (by decide))
    rw [hfix]
    exact parseInteger_stop h0 w [] 0
  | [c] =>
    have hfix : fixupRadix ([c] ++ 0 :: w) = [c] ++ 0 :: w :=
      (fixupRadix_cons c 0 w).trans (if_neg fun h => absurd h.2 (by decide))
    rw [hfix]
    exact parseInteger_stop h0 w [c] 0
  | c :: x :: cs =>
    show parseInteger 0 (fixupRadix (c :: x :: (cs ++ 0 :: w))) = parseInteger 0 (fixupRadix (c :: x :: cs))
    rw [fixupRadix_cons, fixupRadix_cons]
    by_cases hx : c = 0x30 ∧ x ||| 0x20 = 0x78
    · rw [if_pos hx, if_pos hx]
      exact parseInteger_stop h0 w cs 0
    · rw [if_neg hx, if_neg hx]
      exact parseInteger_stop h0 w (c :: x :: cs) 0

/-- Digits are read with those that follow them, and the result wraps. -/
theorem simpleStrtoul_hex {u : List Byte} (hu : IsHex u) (hlen : 2 ≤ u.length) (s : List Byte) :
    simpleStrtoul (u ++ s) = hexValue (u ++ hexRun s) % 2 ^ 64 := by
  have hfix : fixupRadix (u ++ s) = u ++ s := by
    match u, hlen with
    | c :: x :: cs, _ =>
      exact (fixupRadix_cons c x (cs ++ s)).trans (if_neg fun h => hexDigit_ne_x (hu x (by simp)) h.2)
  have hrun : hexRun (u ++ s) = u ++ hexRun s := List.takeWhile_append_of_pos fun c hc => hu c hc
  unfold simpleStrtoul
  rw [hfix, parseInteger_eq, hrun]
  rfl

theorem hexValue_append (s s' : List Byte) : hexValue (s ++ s') = hexValue s * 16 ^ s'.length + hexValue s' := by
  have hfold : ∀ (s' : List Byte) (acc : ℕ), s'.foldl (fun acc c => acc * 16 + (hexDigit c).getD 0) acc =
      acc * 16 ^ s'.length + hexValue s' := by
    intro s'
    induction s' with
    | nil => intro acc; simp [hexValue]
    | cons c cs ih =>
      intro acc
      have hcons : hexValue (c :: cs) = (0 * 16 + (hexDigit c).getD 0) * 16 ^ cs.length + hexValue cs := ih _
      rw [List.foldl_cons, ih, hcons, List.length_cons, pow_succ]
      ring
  rw [hexValue, List.foldl_append, hfold]
  rfl

theorem hexValue_lt (s : List Byte) : hexValue s < 16 ^ s.length := by
  induction s using List.reverseRecOn with
  | nil => exact Nat.one_pos
  | append_singleton s c ih =>
    have hc : (hexDigit c).getD 0 < 16 := by
      cases hd : hexDigit c with
      | none => exact Nat.succ_pos _
      | some d => exact hexDigit_lt hd
    have hone : hexValue [c] = (hexDigit c).getD 0 := Nat.zero_add _
    rw [hexValue_append, hone, List.length_append, List.length_singleton, pow_one, pow_succ]
    omega

/-- The last `n` digits are what is left of a number in `4 * n` bits. -/
theorem hexValue_mod {s : List Byte} {n : ℕ} (h : n ≤ s.length) :
    hexValue s % 16 ^ n = hexValue (s.drop (s.length - n)) := by
  have hlen : (s.drop (s.length - n)).length = n := by
    rw [List.length_drop]
    omega
  have hlt := hexValue_lt (s.drop (s.length - n))
  rw [hlen] at hlt
  calc hexValue s % 16 ^ n
      = hexValue (s.take (s.length - n) ++ s.drop (s.length - n)) % 16 ^ n := by rw [List.take_append_drop]
    _ = hexValue (s.drop (s.length - n)) := by
        rw [hexValue_append, hlen, Nat.mul_add_mod_self_right, Nat.mod_eq_of_lt hlt]

end CStr
end La12xx
