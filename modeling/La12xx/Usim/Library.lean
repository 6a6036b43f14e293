/-
# The writing functions of the library

`usim_lib.c`: the functions of the library that write to the card, and the
functions that read back what two of them write. Each encodes its argument into
a buffer, with a running offset, and hands the buffer to the functions of
`usim_apdu.c`.

A TLV of the caller (`vtq_usim_tlv_t`) is its tag and the bytes its length and
value give. Writing past an array that a function owns is a fault.
-/
import La12xx.Usim.Apdu

namespace La12xx
namespace Usim

open ByteMem

/-! ### TLVs in a buffer -/

/-- `vtq_usim_tlv_t` -/
structure Tlv where
  tag : Byte
  value : List Byte
deriving DecidableEq, Repr

/-- A TLV is appended at the offset `len`: tag, length byte and value. -/
def putTlv (b : Mem × ℤ) (t : Tlv) : Mem × ℤ :=
  let buffer := put b.1 b.2 [t.tag]
  let len := b.2 + 1
  let buffer := put buffer len [BitVec.ofNat 8 t.value.length]
  let len := len + 1
  let buffer := put buffer len t.value
  (buffer, len + t.value.length)

/-- A TLV is read at `pos` if it has the tag that is expected; otherwise only
the tag is noted. -/
def getTlv (m : Mem) (expected : Byte) (pos : ℤ) (t : Tlv) : Tlv × ℤ :=
  if m pos = expected then
    let length := (m (pos + 1)).toNat
    (⟨m pos, bytes m (pos + 2) length⟩, pos + 2 + length)
  else ({ t with tag := m pos }, pos)

/-- A TLV as bytes. -/
def Tlv.bytes (t : Tlv) : List Byte := t.tag :: BitVec.ofNat 8 t.value.length :: t.value

theorem Tlv.length_bytes (t : Tlv) : t.bytes.length = 2 + t.value.length := by
  simp only [Tlv.bytes, List.length_cons]
  omega

/-- A TLV is appended to what the buffer holds. -/
theorem putTlv_holds {b : Mem × ℤ} {a : ℤ} {l : List Byte} (h : Holds b.1 a l) (hb : b.2 = a + l.length)
    (t : Tlv) : Holds (putTlv b t).1 a (l ++ t.bytes) ∧ (putTlv b t).2 = a + (l ++ t.bytes).length := by
  have h1 : Holds (put b.1 b.2 [t.tag]) a (l ++ [t.tag]) := h.append_put hb
  have h2 : Holds (put _ (b.2 + 1) [BitVec.ofNat 8 t.value.length]) a (l ++ [t.tag] ++ [BitVec.ofNat 8 t.value.length]) :=
    h1.append_put (by rw [hb, List.length_append, List.length_singleton]; push_cast; ring)
  have h3 : Holds (put _ (b.2 + 1 + 1) t.value) a (l ++ [t.tag] ++ [BitVec.ofNat 8 t.value.length] ++ t.value) :=
    h2.append_put (by rw [hb, List.length_append, List.length_append]; push_cast [List.length_singleton]; ring)
  have hl : l ++ [t.tag] ++ [BitVec.ofNat 8 t.value.length] ++ t.value = l ++ t.bytes := by
    simp [Tlv.bytes]
  rw [hl] at h3
  refine ⟨h3, ?_⟩
  rw [List.length_append, t.length_bytes]
  show b.2 + 1 + 1 + (t.value.length : ℤ) = _
  push_cast
  omega

/-- A TLV with the expected tag is read as it is. -/
theorem getTlv_holds {m : Mem} {pos : ℤ} {t : Tlv} (h : Holds m pos t.bytes) (hlen : t.value.length < 256)
    (t₀ : Tlv) : getTlv m t.tag pos t₀ = (t, pos + t.bytes.length) := by
  rw [Tlv.bytes, holds_cons, holds_cons] at h
  obtain ⟨htag, hbyte, hval⟩ := h
  have hnat : (m (pos + 1)).toNat = t.value.length := by
    rw [hbyte, BitVec.toNat_ofNat]
    exact Nat.mod_eq_of_lt hlen
  have hval' : Holds m (pos + 2) t.value := by
    have : pos + 1 + 1 = pos + 2 := by ring
    rwa [this] at hval
  simp only [getTlv, hnat, htag, hval'.bytes_eq rfl, t.length_bytes]
  push_cast
  rw [add_assoc]

/-! ### File ids -/

/-- `USIM_5GS_DIRFILEID` -/
def dir5gs : ℤ := 0x5fc0

def uacFileid : Word := 0x4f06
def locationInfoFileid : Word := 0x4f01
def nasSecCtxFileid : Word := 0x4f03
def nasAuthKeysFileid : Word := 0x4f05
def ridFileid : Word := 0x4f0a
def fplmnFileid : Word := 0x6f7b

section Functions

variable (S : Sim) (E : Env)

/-! ### The NAS security context -/

/-- `vtq_usim_nas_security_ctx_t` -/
structure NasSecurityCtx where
  nasSecCtxTag : Byte
  nasSecCtxLen : ℕ
  ngksi : Tlv
  kamf : Tlv
  ulNascount : Tlv
  dlNascount : Tlv
  intEncId : Tlv
  epsIntEncId : Tlv
deriving DecidableEq, Repr

/-- What `vtq_usim_write_nas_sec_ctx` puts into its buffer, and how long it is. -/
def encodeNasSecCtx (buffer : Mem) (ctx : NasSecurityCtx) : Mem × ℤ :=
  let b := (put buffer 0 [ctx.nasSecCtxTag], 2)
  let b := putTlv b ctx.ngksi
  let b := putTlv b ctx.kamf
  let b := putTlv b ctx.ulNascount
  let b := putTlv b ctx.dlNascount
  let b := putTlv b ctx.intEncId
  let b := putTlv b ctx.epsIntEncId
  (put b.1 1 [BitVec.ofInt 8 (b.2 - 2)], b.2)

/-- `vtq_usim_write_nas_sec_ctx` -/
def writeNasSecCtx (ctx : NasSecurityCtx) (nasSecCtxLen : ℤ) : Card ℤ :=
  if ¬ E.malloc nasSecCtxLen then pure (-1)
  else
    let b := encodeNasSecCtx E.heap ctx
    if b.2 > nasSecCtxLen then .fault
    else writeLinearfixed S E nasSecCtxFileid b.2 b.1 dir5gs

/-- How `vtq_usim_read_nas_sec_ctx` fills in the caller's context from its
buffer. -/
def decodeNasSecCtx (m : Mem) (ctx : NasSecurityCtx) : NasSecurityCtx :=
  if m 0 = 0xa0 then
    let ngksi := getTlv m 0x80 2 ctx.ngksi
    let kamf := getTlv m 0x81 ngksi.2 ctx.kamf
    let ulNascount := getTlv m 0x82 kamf.2 ctx.ulNascount
    let dlNascount := getTlv m 0x83 ulNascount.2 ctx.dlNascount
    let intEncId := getTlv m 0x84 dlNascount.2 ctx.intEncId
    let epsIntEncId := getTlv m 0x85 intEncId.2 ctx.epsIntEncId
    { nasSecCtxTag := m 0
      nasSecCtxLen := (m 1).toNat
      ngksi := ngksi.1
      kamf := kamf.1
      ulNascount := ulNascount.1
      dlNascount := dlNascount.1
      intEncId := intEncId.1
      epsIntEncId := epsIntEncId.1 }
  else { ctx with nasSecCtxTag := m 0 }

/-- `vtq_usim_read_nas_sec_ctx`: the return value and the caller's context. It compares
the length of a record with that of its buffer when the record has been copied there. -/
def readNasSecCtx (ctx : NasSecurityCtx) (nasSecCtxLen : ℤ) : Card (ℤ × NasSecurityCtx) :=
  if ¬ E.malloc nasSecCtxLen then pure (-1, ctx)
  else do
    let out ← readLinearfixed S E nasSecCtxFileid 0 E.heap dir5gs
    if out.len > nasSecCtxLen then .fault
    else if out.ret < 0 then pure (out.ret, ctx)
    else pure (0, decodeNasSecCtx out.buf ctx)

/-- `vtq_usim_invalidate_nas_sec_ctx` -/
def invalidateNasSecCtx : Card ℤ := do
  let out ← readLinearfixed S E nasSecCtxFileid 0 E.heap dir5gs
  if out.ret < 0 then pure out.ret
  else writeLinearfixed S E nasSecCtxFileid out.len (put out.buf 4 [0x07]) dir5gs

/-! ### The NAS authentication keys -/

/-- `vtq_usim_nas_auth_keys_t` -/
structure NasAuthKeys where
  kausf : Tlv
  kseaf : Tlv
deriving DecidableEq, Repr

/-- What `vtq_usim_write_nas_auth_keys` puts into its buffer of 256 bytes. -/
def encodeNasAuthKeys (buffer : Mem) (keys : NasAuthKeys) : Mem × ℤ :=
  putTlv (putTlv (buffer, 0) keys.kausf) keys.kseaf

/-- `vtq_usim_write_nas_auth_keys`; it ends with `return 0`. -/
def writeNasAuthKeys (keys : NasAuthKeys) : Card ℤ :=
  let b := encodeNasAuthKeys E.heap keys
  if b.2 > 256 then .fault
  else do
    let _ ← writeTransparent S E nasAuthKeysFileid b.2 b.1 0 0 dir5gs
    pure 0

/-- The length of a key at the length byte `pos` and the number of octets it
takes: up to 127 it is the byte; otherwise its low bits say how many octets are
added up, from `pos + off` on. `octets` is what the count was before. -/
def keyLength (m : Mem) (pos off : ℤ) (octets : ℕ) : ℕ × ℕ :=
  if (m pos).toNat > 127 then
    let octets := (m pos &&& 0x7f).toNat
    (((List.range octets).map fun i : ℕ => (m (pos + off + i)).toNat).sum, octets)
  else ((m pos).toNat, octets)

/-- How `vtq_usim_read_nas_auth_keys` fills in the caller's keys from its
buffer. The count of octets of the first key is still there at the second. -/
def decodeNasAuthKeys (m : Mem) (keys : NasAuthKeys) : NasAuthKeys :=
  let a : Tlv × ℤ × ℕ :=
    if m 0 = 0x80 then
      let l := keyLength m 1 1 0
      (⟨m 0, bytes m (2 + l.2) l.1⟩, 2 + l.2 + l.1, l.2)
    else ({ keys.kausf with tag := m 0 }, 0, 0)
  let pos := a.2.1
  let kseaf : Tlv :=
    if m pos = 0x81 then
      let l := keyLength m (pos + 1) 2 a.2.2
      ⟨m pos, bytes m (pos + 2 + l.2) l.1⟩
    else { keys.kseaf with tag := m pos }
  ⟨a.1, kseaf⟩

/-- `vtq_usim_read_nas_auth_keys`: the return value and the caller's keys. -/
def readNasAuthKeys (keys : NasAuthKeys) (authKeyLen : ℤ) : Card (ℤ × NasAuthKeys) :=
  if ¬ E.malloc authKeyLen then pure (-1, keys)
  else do
    let out ← readTransparent S E nasAuthKeysFileid 0 E.heap dir5gs
    if out.ret < 0 then pure (out.ret, keys)
    else if out.len > authKeyLen then pure (-1, keys)
    else pure (0, decodeNasAuthKeys out.buf keys)

/-! ### Fixed fields -/

/-- The `n` bytes of a field. -/
abbrev Field (n : ℕ) := { l : List Byte // l.length = n }

/-- `vtq_usim_write_uac` -/
def writeUac (uac : Field 4) : Card ℤ := writeTransparent S E uacFileid 4 (ofList uac.1) 0 0 dir5gs

/-- `vtq_usim_write_5gs_loc_info` -/
def write5gsLocInfo (locInfo : Field 20) : Card ℤ :=
  writeTransparent S E locationInfoFileid 20 (ofList locInfo.1) 0 0 dir5gs

/-- `vtq_usim_write_rid`; the indicator is stored with its low byte first. -/
def writeRid (rid : Word) : Card ℤ := writeTransparent S E ridFileid 2 (ofList (le16 rid)) 0 0 dir5gs

/-! ### The forbidden PLMNs -/

/-- `plmn_id` of a `vtq_usim_fplmn_t` -/
structure Plmn where
  b0 : Byte
  b1 : Byte
  b2 : Byte
deriving DecidableEq, Repr

def Plmn.bytes (p : Plmn) : List Byte := [p.b0, p.b1, p.b2]

/-- The status test of the two functions below. -/
def updateResult (resp : Resp) : ℤ := if resp.data 1 ≠ 0x90 ∧ resp.data 2 ≠ 0x00 then -1 else 0

/-- `vtq_usim_append_forbidden_plmns` for an array of PLMNs -/
def appendForbiddenPlmns (fplmn : List Plmn) : Card ℤ := do
  let out ← readTransparent S E fplmnFileid 0 E.heap 0
  if out.ret < 0 then pure out.ret
  else
    let data := fplmn.flatMap Plmn.bytes
    let lowerOffset : ℤ := out.len - 3 * fplmn.length
    if data.length > 256 then .fault
    else do
      let resp ← updateBinary S data.length (ofList data) 0 (BitVec.ofInt 8 lowerOffset)
      pure (updateResult resp)

/-- The inner loop of `vtq_usim_delete_forbidden_plmns` from `j` on: every
entry equal to the PLMN is overwritten. -/
def deleteEntry (p : Plmn) (len : ℤ) : ℕ → ℤ → Mem → Mem
  | 0, _, buffer => buffer
  | fuel + 1, j, buffer =>
    if j < len then
      deleteEntry p len fuel (j + 3)
        (if ByteMem.bytes buffer j 3 = p.bytes then put buffer j [0xff, 0xff, 0xff] else buffer)
    else buffer

/-- `vtq_usim_delete_forbidden_plmns` for an array of PLMNs -/
def deleteForbiddenPlmns (fplmn : List Plmn) : Card ℤ := do
  let out ← readTransparent S E fplmnFileid 0 E.heap 0
  if out.ret < 0 then pure out.ret
  else
    let buffer := fplmn.foldl (fun buffer p => deleteEntry p out.len out.len.toNat 0 buffer) out.buf
    let resp ← updateBinary S out.len buffer 0 0
    pure (updateResult resp)

end Functions

end Usim
end La12xx
