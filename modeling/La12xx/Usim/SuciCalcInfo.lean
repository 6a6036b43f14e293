/-
# The concealed identity and what it is computed from

`vtq_usim_read_suci` and `vtq_usim_read_suci_calc_info`. The file that the second
one reads is a list of protection schemes, each with the index of a key, and a
list of keys. The keys are walked with a pointer that moves once for every
scheme whose index is not `0`.

A store past an array of the caller's structure is `none`, and a fault of the
function.
-/
import La12xx.Usim.Library
import La12xx.Lib.Loop

namespace La12xx
namespace Usim

open ByteMem

/-- A length at the byte `pos`: up to 127 it is the byte; otherwise the octets,
as many as its low bits say, are added to the byte. `octets` is what their
count was before. -/
def listLength (m : Mem) (pos : ℤ) (octets : ℕ) : ℕ × ℕ :=
  if (m pos).toNat > 127 then
    let octets := (m pos &&& 0x7f).toNat
    ((m pos).toNat + ((List.range octets).map fun i : ℕ => (m (pos + 1 + i)).toNat).sum, octets)
  else ((m pos).toNat, octets)

/-! ### The SUCI -/

/-- `vtq_usim_suci_t` -/
structure Suci where
  length : ℕ
  value : List Byte
deriving DecidableEq, Repr

/-- How `vtq_usim_read_suci` fills in the caller's structure from its buffer,
with the return value. -/
def decodeSuci (m : Mem) (suciLen : ℤ) (suci : Suci) : ℤ × Suci :=
  let l := listLength m 1 0
  if suciLen < l.1 then (-1, suci) else (0, ⟨l.1, bytes m (2 + l.2) l.1⟩)

/-! ### The schemes and the keys -/

/-- `USIM_SUCI_CALC_INFO_FILEID` -/
def suciCalcInfoFileid : Word := 0x4f07

/-- `vtq_usim_suci_calc_info_t`; the arrays have 16 entries and a key 128 bytes. -/
structure SuciCalcInfo where
  numProtectionSchemes : Byte
  protectionSchemeIds : ℕ → Byte
  homeNwPublicKeyId : ℕ → Byte
  homeNwPubKeyLen : ℕ → Byte
  homeNwPublicKey : ℕ → Mem

namespace SuciCalcInfo

def setSchemeId (info : SuciCalcInfo) (i : ℕ) (x : Byte) : SuciCalcInfo :=
  { info with protectionSchemeIds := Function.update info.protectionSchemeIds i x }

def setKeyId (info : SuciCalcInfo) (i : ℕ) (x : Byte) : SuciCalcInfo :=
  { info with homeNwPublicKeyId := Function.update info.homeNwPublicKeyId i x }

def setKeyLen (info : SuciCalcInfo) (i : ℕ) (x : Byte) : SuciCalcInfo :=
  { info with homeNwPubKeyLen := Function.update info.homeNwPubKeyLen i x }

def setKey (info : SuciCalcInfo) (i : ℕ) (key : Mem) : SuciCalcInfo :=
  { info with homeNwPublicKey := Function.update info.homeNwPublicKey i key }

end SuciCalcInfo

/-- `key_index[i]`, when the schemes begin at `1 + octets`. -/
def keyIndex (m : Mem) (octets i : ℕ) : Byte := m (1 + octets + i + 1)

/-- One round of the loop over the schemes. -/
def schemeRound (m : Mem) (octets i : ℕ) (info : SuciCalcInfo) : SuciCalcInfo :=
  let info := info.setSchemeId i (m (1 + octets + i))
  if keyIndex m octets i = 0 then (info.setKeyId i 0).setKeyLen i 0 else info

/-- What the loop over the keys carries: the pointer, the count of octets of
the last long key, and the caller's structure. -/
structure KeyCursor where
  p : ℤ
  octets : ℕ
  info : SuciCalcInfo

/-- One round of the loop over the keys, for the key index `k`. -/
def keyRound (m : Mem) (idTag : Byte) (k : ℕ) (c : KeyCursor) : Option KeyCursor :=
  if k = 0 then some c
  else if idTag = 0x80 ∧ 16 < k then none
  else
    let info := if idTag = 0x80 then c.info.setKeyId (k - 1) (m (c.p + 2)) else c.info
    let p := c.p + 3
    if m p = 0x81 then
      let l := keyLength m (p + 1) 4 c.octets
      if 16 < k ∨ 128 < l.1 then none
      else
        some ⟨p + 1 + l.2 + l.1, l.2, (info.setKeyLen (k - 1) (BitVec.ofNat 8 l.1)).setKey (k - 1)
          (copy (info.homeNwPublicKey (k - 1)) 0 m (p + 2 + l.2) l.1)⟩
    else some ⟨p, c.octets, info⟩

/-- The loop over the keys. -/
def readKeys (m : Mem) (idTag : Byte) : List ℕ → KeyCursor → Option KeyCursor
  | [], c => some c
  | k :: ks, c => (keyRound m idTag k c).bind (readKeys m idTag ks)

/-- How `vtq_usim_read_suci_calc_info` fills in the caller's structure from its
buffer. -/
def decodeSuciCalcInfo (m : Mem) (info : SuciCalcInfo) : Option SuciCalcInfo :=
  if m 0 = 0xa0 then
    let l := listLength m 1 1
    let num := BitVec.ofNat 8 (l.1 / 2)
    if 16 < num.toNat then none
    else
      let info := loop num.toNat (schemeRound m l.2) { info with numProtectionSchemes := num }
      let p : ℤ := 1 + l.2 + l.1
      if m p = 0xa1 then
        let p := p + 1 + 1 + (listLength m (p + 1) 0).2
        let ks := (List.range num.toNat).map fun i => (keyIndex m l.2 i).toNat
        (readKeys m (m p) ks ⟨p, 0, info⟩).map KeyCursor.info
      else some info
  else some info

section Functions

variable (S : Sim) (E : Env)

/-- The command of `usim_get_identity`. -/
def getIdentityCmd (len : ℤ) : Apdu := [cla S, 0x78, 0x00, 0x02, BitVec.ofInt 8 len]

/-- `vtq_usim_read_suci`: the return value and the caller's structure. What
`usim_get_suci` returns is never negative. -/
def readSuci (suci : Suci) (suciLen : ℤ) : Card (ℤ × Suci) :=
  if ¬ E.malloc suciLen then pure (-1, suci)
  else do
    let resp ← sendReceiveAPDU (getIdentityCmd S suciLen)
    pure (decodeSuci resp.data suciLen suci)

/-- `vtq_usim_read_suci_calc_info`: the return value and the caller's structure. -/
def readSuciCalcInfo (info : SuciCalcInfo) (suciCalcInfoLen : ℤ) : Card (ℤ × SuciCalcInfo) :=
  if ¬ E.malloc suciCalcInfoLen then pure (-1, info)
  else do
    let out ← readTransparent S E suciCalcInfoFileid 0 E.heap dir5gs
    if out.ret < 0 then pure (out.ret, info)
    else if suciCalcInfoLen < out.len then pure (-1, info)
    else
      match decodeSuciCalcInfo out.buf info with
      | none => .fault
      | some info => pure (0, info)

end Functions

end Usim
end La12xx
