/-
# The security context, written, invalidated and read

`vtq_usim_write_nas_sec_ctx` lays six TLVs out in a buffer and goes back to set
the length of the container; `vtq_usim_read_nas_sec_ctx` takes them apart again,
and `vtq_usim_invalidate_nas_sec_ctx` overwrites the byte at offset 4 in between.
On a card that keeps its records the context comes back as it was written exactly if
the buffer the reader is given holds a whole record, and a command holds one where it
is to be invalidated (`nasSecCtx_roundTrip_iff`).
-/
import La12xx.Usim.Files
import La12xx.Usim.Library

namespace La12xx
namespace Usim

open ByteMem Dialogue

/-! ### The context as bytes -/

/-- The six TLVs in the container. -/
def NasSecurityCtx.inner (ctx : NasSecurityCtx) : List Byte :=
  ctx.ngksi.bytes ++ (ctx.kamf.bytes ++ (ctx.ulNascount.bytes ++ (ctx.dlNascount.bytes ++
    (ctx.intEncId.bytes ++ ctx.epsIntEncId.bytes))))

/-- The container: tag, length and TLVs. -/
def NasSecurityCtx.bytes (ctx : NasSecurityCtx) : List Byte :=
  ctx.nasSecCtxTag :: BitVec.ofNat 8 ctx.inner.length :: ctx.inner

theorem NasSecurityCtx.length_bytes (ctx : NasSecurityCtx) : ctx.bytes.length = ctx.inner.length + 2 := rfl

/-- The tags are the expected ones. -/
structure NasSecurityCtx.Tagged (ctx : NasSecurityCtx) : Prop where
  container : ctx.nasSecCtxTag = 0xa0
  ngksi : ctx.ngksi.tag = 0x80
  kamf : ctx.kamf.tag = 0x81
  ulNascount : ctx.ulNascount.tag = 0x82
  dlNascount : ctx.dlNascount.tag = 0x83
  intEncId : ctx.intEncId.tag = 0x84
  epsIntEncId : ctx.epsIntEncId.tag = 0x85

/-- The buffer of the writer holds the container, whatever was in it before. -/
theorem encodeNasSecCtx_holds (buffer : Mem) (ctx : NasSecurityCtx) :
    Holds (encodeNasSecCtx buffer ctx).1 0 ctx.bytes ∧ (encodeNasSecCtx buffer ctx).2 = ctx.bytes.length := by
  -- the length byte is skipped first: it holds what was there
  have h0 : Holds (put buffer 0 [ctx.nasSecCtxTag]) 0 [ctx.nasSecCtxTag, buffer 1] := by
    rw [holds_cons, holds_cons]
    exact ⟨rfl, put_of_ge (by simp), holds_nil _ _⟩
  obtain ⟨h1, l1⟩ := putTlv_holds (b := (put buffer 0 [ctx.nasSecCtxTag], 2)) h0 rfl ctx.ngksi
  obtain ⟨h2, l2⟩ := putTlv_holds h1 l1 ctx.kamf
  obtain ⟨h3, l3⟩ := putTlv_holds h2 l2 ctx.ulNascount
  obtain ⟨h4, l4⟩ := putTlv_holds h3 l3 ctx.dlNascount
  obtain ⟨h5, l5⟩ := putTlv_holds h4 l4 ctx.intEncId
  obtain ⟨h6, l6⟩ := putTlv_holds h5 l5 ctx.epsIntEncId
  have hall : [ctx.nasSecCtxTag, buffer 1] ++ ctx.ngksi.bytes ++ ctx.kamf.bytes ++ ctx.ulNascount.bytes ++
      ctx.dlNascount.bytes ++ ctx.intEncId.bytes ++ ctx.epsIntEncId.bytes =
      ctx.nasSecCtxTag :: buffer 1 :: ctx.inner := by
    simp [NasSecurityCtx.inner]
  rw [hall] at h6 l6
  have hlen : (encodeNasSecCtx buffer ctx).2 = ctx.bytes.length := by
    refine l6.trans ?_
    simp [NasSecurityCtx.bytes]
  refine ⟨?_, hlen⟩
  rw [holds_cons, holds_cons] at h6
  obtain ⟨htag, -, hinner⟩ := h6
  have hbyte : BitVec.ofInt 8 ((encodeNasSecCtx buffer ctx).2 - 2) = BitVec.ofNat 8 ctx.inner.length := by
    rw [hlen, ctx.length_bytes, ← BitVec.ofInt_natCast]
    congr 1
    push_cast
    ring
  have hput : (encodeNasSecCtx buffer ctx).1 = put _ 1 [BitVec.ofInt 8 ((encodeNasSecCtx buffer ctx).2 - 2)] := rfl
  rw [hput, hbyte, NasSecurityCtx.bytes, holds_cons, holds_cons]
  refine ⟨(put_of_lt (by norm_num)).trans htag, ?_, ?_⟩
  · exact (holds_cons.mp (holds_put _ _ _)).1
  · exact hinner.put_of_disjoint (.inr (by simp))

/-- What comes after the context does not matter to the reader. -/
theorem decodeNasSecCtx_holds {m : Mem} {ctx : NasSecurityCtx} {rest : List Byte} (h : Holds m 0 (ctx.bytes ++ rest))
    (htag : ctx.Tagged) (hlen : ctx.inner.length < 256) (ctx₀ : NasSecurityCtx) :
    decodeNasSecCtx m ctx₀ = { ctx with nasSecCtxLen := ctx.inner.length } := by
  obtain ⟨hbytes, -⟩ := holds_append.mp h
  rw [NasSecurityCtx.bytes, holds_cons, holds_cons] at hbytes
  obtain ⟨h0, h1, hinner⟩ := hbytes
  have hnat : (m 1).toNat = ctx.inner.length := by
    have h1' : m 1 = BitVec.ofNat 8 ctx.inner.length := h1
    rw [h1', BitVec.toNat_ofNat]
    exact Nat.mod_eq_of_lt hlen
  have hsizes : ctx.inner.length = ctx.ngksi.bytes.length + (ctx.kamf.bytes.length +
      (ctx.ulNascount.bytes.length + (ctx.dlNascount.bytes.length + (ctx.intEncId.bytes.length +
        ctx.epsIntEncId.bytes.length)))) := by
    simp only [NasSecurityCtx.inner, List.length_append]
  simp only [Tlv.length_bytes] at hsizes
  have hpos : (0 : ℤ) + 1 + 1 = 2 := by norm_num
  simp only [NasSecurityCtx.inner, holds_append, hpos] at hinner
  obtain ⟨t1, t2, t3, t4, t5, t6⟩ := hinner
  have g1 := getTlv_holds t1 (by omega) ctx₀.ngksi
  have g2 := getTlv_holds t2 (by omega) ctx₀.kamf
  have g3 := getTlv_holds t3 (by omega) ctx₀.ulNascount
  have g4 := getTlv_holds t4 (by omega) ctx₀.dlNascount
  have g5 := getTlv_holds t5 (by omega) ctx₀.intEncId
  have g6 := getTlv_holds t6 (by omega) ctx₀.epsIntEncId
  rw [htag.ngksi] at g1
  rw [htag.kamf] at g2
  rw [htag.ulNascount] at g3
  rw [htag.dlNascount] at g4
  rw [htag.intEncId] at g5
  rw [htag.epsIntEncId] at g6
  have htag0 : m 0 = 0xa0 := h0.trans htag.container
  simp only [decodeNasSecCtx, htag0, if_true, hnat, g1, g2, g3, g4, g5, g6]
  rw [← htag.container]

/-! ### On a card that keeps its records -/

section Card

variable {S : Sim} {σ : Type} {card : σ → Apdu → σ × Resp} (F : LinearFile S dir5gs nasSecCtxFileid card)

/-- Every record starts with the list. -/
def LinearFile.AllStart (s : σ) (l : List Byte) : Prop := ∀ j, 1 ≤ j → j ≤ F.count → l <+: F.records s j

/-- Writing puts the context into every record. -/
theorem run_writeNasSecCtx {E : Env} {ctx : NasSecurityCtx} {nasSecCtxLen : ℤ} (hm : E.malloc nasSecCtxLen)
    (h251 : ctx.bytes.length ≤ 251) (hrec : ctx.bytes.length ≤ F.recLen) (hlen : ctx.bytes.length ≤ nasSecCtxLen)
    (s : σ) :
    let o := run card (writeNasSecCtx S E ctx nasSecCtxLen) s
    o.val = some 0 ∧ F.AllStart o.state ctx.bytes := by
  obtain ⟨hholds, hl⟩ := encodeNasSecCtx_holds E.heap ctx
  have hstep : writeNasSecCtx S E ctx nasSecCtxLen =
      writeLinearfixed S E nasSecCtxFileid (encodeNasSecCtx E.heap ctx).2 (encodeNasSecCtx E.heap ctx).1 dir5gs := by
    rw [writeNasSecCtx, if_neg (not_not.mpr hm), if_neg (by omega)]
  rw [hstep]
  exact run_writeLinearfixed F (by decide) hholds hl h251 hrec s

/-- Reading delivers what the records start with. -/
theorem run_readNasSecCtx {E : Env} {ctx : NasSecurityCtx} {nasSecCtxLen : ℤ} (hm : E.malloc nasSecCtxLen)
    (htag : ctx.Tagged) (h251 : ctx.bytes.length ≤ 251) (hcount : 1 ≤ F.count) (hlen : F.recLen ≤ nasSecCtxLen)
    {s : σ} (hs : F.AllStart s ctx.bytes) (ctx₀ : NasSecurityCtx) :
    (run card (readNasSecCtx S E ctx₀ nasSecCtxLen) s).val =
      some (0, { ctx with nasSecCtxLen := ctx.inner.length }) := by
  obtain ⟨buf', hval, hbuf, -⟩ := run_readLinearfixed F (E := E) (by decide) hcount 0 E.heap s
  obtain ⟨rest, hrest⟩ := hs F.count hcount le_rfl
  rw [← hrest] at hbuf
  have hinner : ctx.inner.length < 256 := by
    have := ctx.length_bytes
    omega
  rw [readNasSecCtx, if_neg (not_not.mpr hm), run_bind, hval]
  simp only [lt_irrefl, if_false, not_lt.mpr hlen]
  rw [decodeNasSecCtx_holds hbuf htag hinner]
  rfl

/-- A record that is longer than the buffer is copied past its end. -/
theorem run_readNasSecCtx_overrun {E : Env} {nasSecCtxLen : ℤ} (hm : E.malloc nasSecCtxLen) (hcount : 1 ≤ F.count)
    (hlen : nasSecCtxLen < F.recLen) (ctx₀ : NasSecurityCtx) (s : σ) :
    (run card (readNasSecCtx S E ctx₀ nasSecCtxLen) s).val = none := by
  obtain ⟨buf', hval, -⟩ := run_readLinearfixed F (E := E) (by decide) hcount 0 E.heap s
  rw [readNasSecCtx, if_neg (not_not.mpr hm), run_bind, hval]
  simp only [hlen, if_true, run_fault]

/-- The context with an invalid key set identifier. -/
def NasSecurityCtx.invalidated (ctx : NasSecurityCtx) : NasSecurityCtx :=
  { ctx with ngksi := { ctx.ngksi with value := ctx.ngksi.value.set 0 0x07 } }

/-- The byte at offset 4 is the first of the key set identifier. -/
theorem invalidated_bytes {ctx : NasSecurityCtx} (h : 1 ≤ ctx.ngksi.value.length) (rest : List Byte) :
    (ctx.bytes ++ rest).set 4 0x07 = ctx.invalidated.bytes ++ rest := by
  obtain ⟨tag, len, ⟨ktag, value⟩, kamf, ul, dl, int, eps⟩ := ctx
  cases value with
  | nil => simp at h
  | cons v vs =>
    simp [NasSecurityCtx.bytes, NasSecurityCtx.inner, NasSecurityCtx.invalidated, Tlv.bytes]

/-- Invalidating changes that byte in every record. -/
theorem run_invalidateNasSecCtx {E : Env} {ctx : NasSecurityCtx} (hcount : 1 ≤ F.count) (h251 : F.recLen ≤ 251)
    (hng : 1 ≤ ctx.ngksi.value.length) {s : σ} (hs : F.AllStart s ctx.bytes) :
    let o := run card (invalidateNasSecCtx S E) s
    o.val = some 0 ∧ F.AllStart o.state ctx.invalidated.bytes := by
  obtain ⟨buf', hval, hbuf, -⟩ := run_readLinearfixed F (E := E) (by decide) hcount 0 E.heap s
  obtain ⟨rest, hrest⟩ := hs F.count hcount le_rfl
  have hlen := F.length_records s F.count
  rw [← hrest] at hbuf hlen
  have h4 : 4 < (ctx.bytes ++ rest).length := by
    rw [List.length_append, ctx.length_bytes]
    simp only [NasSecurityCtx.inner, List.length_append, Tlv.length_bytes]
    omega
  have hput := hbuf.put_set h4 0x07
  rw [invalidated_bytes hng] at hput
  have hlen' : (ctx.invalidated.bytes ++ rest).length = F.recLen := by
    rw [← invalidated_bytes hng, List.length_set, hlen]
  obtain ⟨hv, hall⟩ := run_writeLinearfixed F (E := E) (by decide) hput (congrArg Nat.cast hlen'.symm)
    (by omega) (by omega) (run card (readLinearfixed S E nasSecCtxFileid 0 E.heap dir5gs) s).state
  intro o
  have ho : o.val = (run card (writeLinearfixed S E nasSecCtxFileid F.recLen (put buf' (0 + (4 : ℕ)) [0x07]) dir5gs)
      (run card (readLinearfixed S E nasSecCtxFileid 0 E.heap dir5gs) s).state).val ∧
      o.state = (run card (writeLinearfixed S E nasSecCtxFileid F.recLen (put buf' (0 + (4 : ℕ)) [0x07]) dir5gs)
      (run card (readLinearfixed S E nasSecCtxFileid 0 E.heap dir5gs) s).state).state := by
    simp only [o, invalidateNasSecCtx]
    rw [run_bind, hval]
    exact ⟨rfl, rfl⟩
  refine ⟨ho.1.trans hv, fun j hj hj' => ?_⟩
  rw [ho.2]
  exact (List.prefix_append _ _).trans (hall j hj hj')

/-- The records are read before they are invalidated, and then one is too long for a command. -/
theorem run_invalidateNasSecCtx_overrun {E : Env} (hcount : 1 ≤ F.count) (h251 : 251 < F.recLen) (s : σ) :
    (run card (invalidateNasSecCtx S E) s).val = none := by
  obtain ⟨buf', hval, -⟩ := run_readLinearfixed F (E := E) (by decide) hcount 0 E.heap s
  have hlen : (251 : ℤ) < (F.recLen : ℤ) := by exact_mod_cast h251
  have hover := run_writeLinearfixed_overrun F (E := E) (by decide) hcount hlen (put buf' 4 [0x07])
    (run card (readLinearfixed S E nasSecCtxFileid 0 E.heap dir5gs) s).state
  rw [invalidateNasSecCtx, run_bind, hval]
  exact hover

end Card

/-- What is written is read again, and with another first byte of the key set
identifier, if there is one, when it was invalidated in between. -/
def RoundTrips (S : Sim) {σ : Type} (card : σ → Apdu → σ × Resp) (Ew Ei Er : Env) (ctx ctx₀ : NasSecurityCtx)
    (nasSecCtxLen : ℤ) (s : σ) : Prop :=
  let w := run card (writeNasSecCtx S Ew ctx nasSecCtxLen) s
  w.val = some 0 ∧
  (run card (readNasSecCtx S Er ctx₀ nasSecCtxLen) w.state).val =
    some (0, { ctx with nasSecCtxLen := ctx.inner.length }) ∧
  (1 ≤ ctx.ngksi.value.length →
    let i := run card (invalidateNasSecCtx S Ei) w.state
    i.val = some 0 ∧
    (run card (readNasSecCtx S Er ctx₀ nasSecCtxLen) i.state).val =
      some (0, { ctx with
        nasSecCtxLen := ctx.inner.length
        ngksi := { ctx.ngksi with value := ctx.ngksi.value.set 0 0x07 } }))

/-- **The context comes back as it was written**, on a card that keeps its records,
exactly if a record fits into the buffer of the reader, and into a command if there is
a key set identifier to invalidate. -/
theorem nasSecCtx_roundTrip_iff (S : Sim) {σ : Type} (card : σ → Apdu → σ × Resp)
    (F : LinearFile S dir5gs nasSecCtxFileid card) (hcount : 1 ≤ F.count) (ctx : NasSecurityCtx) (htag : ctx.Tagged)
    (nasSecCtxLen : ℤ) (h251 : ctx.bytes.length ≤ 251) (hlen : ctx.bytes.length ≤ nasSecCtxLen)
    (hrec : ctx.bytes.length ≤ F.recLen) (Ew Ei Er : Env) (hw : Ew.malloc nasSecCtxLen) (hr : Er.malloc nasSecCtxLen)
    (ctx₀ : NasSecurityCtx) (s : σ) :
    RoundTrips S card Ew Ei Er ctx ctx₀ nasSecCtxLen s ↔
      F.recLen ≤ nasSecCtxLen ∧ (1 ≤ ctx.ngksi.value.length → F.recLen ≤ 251) := by
  obtain ⟨hval, hall⟩ := run_writeNasSecCtx F hw h251 hrec hlen s
  constructor
  · rintro ⟨-, hread, hinv⟩
    constructor
    · by_contra hlong
      rw [run_readNasSecCtx_overrun F hr hcount (not_le.mp hlong)] at hread
      cases hread
    · intro hng
      by_contra hlong
      have hvali := (hinv hng).1
      rw [run_invalidateNasSecCtx_overrun F hcount (not_le.mp hlong)] at hvali
      cases hvali
  · rintro ⟨hfit, hcmd⟩
    refine ⟨hval, run_readNasSecCtx F hr htag h251 hcount hfit hall ctx₀, fun hng => ?_⟩
    obtain ⟨hvali, halli⟩ := run_invalidateNasSecCtx F (E := Ei) hcount (hcmd hng) hng hall
    have hinner : ctx.invalidated.inner.length = ctx.inner.length := by
      simp [NasSecurityCtx.inner, NasSecurityCtx.invalidated, Tlv.bytes]
    have htagi : ctx.invalidated.Tagged := ⟨htag.1, htag.2, htag.3, htag.4, htag.5, htag.6, htag.7⟩
    have h251i : ctx.invalidated.bytes.length ≤ 251 := by
      rw [NasSecurityCtx.length_bytes, hinner, ← ctx.length_bytes]
      exact h251
    refine ⟨hvali, ?_⟩
    rw [run_readNasSecCtx F hr htagi h251i hcount hfit halli ctx₀, hinner]
    rfl

/-- A context with a key set identifier of one byte and nothing else. -/
def oneByteCtx : NasSecurityCtx :=
  ⟨0xa0, 0, ⟨0x80, [0x01]⟩, ⟨0x81, []⟩, ⟨0x82, []⟩, ⟨0x83, []⟩, ⟨0x84, []⟩, ⟨0x85, []⟩⟩

theorem oneByteCtx_tagged : oneByteCtx.Tagged := ⟨rfl, rfl, rfl, rfl, rfl, rfl, rfl⟩

/-- The context on a card with two records of 20 bytes. -/
theorem nasSecCtx_roundTrip_oneByte :
    let card := recordCard 20 2
    let w := run card (writeNasSecCtx fiveByteAid plainEnv oneByteCtx 20) fun _ => []
    let i := run card (invalidateNasSecCtx fiveByteAid plainEnv) w.state
    (run card (readNasSecCtx fiveByteAid plainEnv oneByteCtx 20) w.state).val =
        some (0, { oneByteCtx with nasSecCtxLen := 13 }) ∧
      (run card (readNasSecCtx fiveByteAid plainEnv oneByteCtx 20) i.state).val =
        some (0, { oneByteCtx with nasSecCtxLen := 13, ngksi := ⟨0x80, [0x07]⟩ }) := by
  intro card w i
  obtain ⟨-, hread, hinv⟩ := (nasSecCtx_roundTrip_iff fiveByteAid card
    (recordFile rfl dir5gs nasSecCtxFileid 20 2 (by decide) (by decide)) (by decide) oneByteCtx oneByteCtx_tagged 20
    (by decide) (by decide) (by decide) plainEnv plainEnv plainEnv rfl rfl oneByteCtx fun _ => []).mpr
    ⟨by decide, fun _ => by decide⟩
  exact ⟨hread, (hinv (by decide)).2⟩

/-- The context fits a buffer of 15 bytes, but a record of 20 does not; nor does one of
253 bytes fit a command. -/
theorem long_record_overruns :
    oneByteCtx.Tagged ∧ oneByteCtx.bytes.length = 15 ∧
    ¬ RoundTrips fiveByteAid (recordCard 20 2) plainEnv plainEnv plainEnv oneByteCtx oneByteCtx 15 (fun _ => []) ∧
    ¬ RoundTrips fiveByteAid (recordCard 253 1) plainEnv plainEnv plainEnv oneByteCtx oneByteCtx 253 fun _ => [] := by
  refine ⟨oneByteCtx_tagged, by decide, ?_, ?_⟩
  · rintro ⟨-, hread, -⟩
    revert hread
    decide +kernel
  · rintro ⟨-, -, hinv⟩
    have hvali := (hinv (by decide)).1
    revert hvali
    decide +kernel

end Usim
end La12xx
