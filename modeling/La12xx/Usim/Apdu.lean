/-
# Files of the card

`usim_apdu.c`: the commands the library sends to the card and the four
functions that read and write its files. Each of the four selects the directory
of the file if one is given, then the file, works on it, and selects the
application again before it returns.

A function is a `Dialogue` that sends commands (`Apdu`) and goes on with what
the driver leaves behind (`Resp`): the return value of the ioctl and the bytes
in the response buffer, where a card, a failing transfer or memory past the
buffer may have left anything. A `memcpy` into an array of the library that is
too small and a division by zero are faults; a buffer of the caller is memory of
any length.
-/
import La12xx.Lib.ByteMem
import La12xx.Lib.Dialogue

namespace La12xx
namespace Usim

open ByteMem

/-! ### Commands -/

/-- `sim.type`: `GSM_SIM_TYPE` or `USIM_TYPE`. -/
inductive SimType where
  | gsm
  | usim
deriving DecidableEq, Repr

abbrev Word := BitVec 16

/-- The globals of the library after `vtq_usim_register`: `sim`, and the AID of
the application, which has at most 16 bytes. -/
structure Sim where
  type : SimType
  dirFileid : Word
  aid : List Byte
  aid_length : aid.length ≤ 16
deriving DecidableEq, Repr

abbrev Apdu := List Byte

/-- What `SendReceiveAPDU` leaves: its return value and the response buffer. -/
structure Resp where
  ret : ℤ
  data : Mem

/-- A function that talks to the card. -/
abbrev Card := Dialogue Apdu Resp

/-- `SendReceiveAPDU` -/
def sendReceiveAPDU (cmd : Apdu) : Card Resp := Dialogue.query cmd

section Commands

variable (S : Sim)

/-- The class byte. -/
def cla : Byte := if S.type = .usim then 0x00 else 0xa0

/-- The command of `usim_select_file_byaid`. -/
def selectByAidCmd : Apdu := [0x00, 0xa4, 0x04, 0x00, BitVec.ofNat 8 S.aid.length] ++ S.aid

/-- The command of `usim_select_file_byid`. -/
def selectByIdCmd (fileid : Word) : Apdu :=
  [cla S, 0xa4, 0x00, if S.type = .usim then 0x04 else 0x00, 0x02, fileid.extractLsb' 8 8,
    fileid.extractLsb' 0 8]

/-- The command of `usim_get_response`. -/
def getResponseCmd (len : ℤ) : Apdu := [cla S, 0xc0, 0x00, 0x00, BitVec.ofInt 8 len]

/-- The command of `usim_read_binary`. -/
def readBinaryCmd (len : ℤ) : Apdu := [cla S, 0xb0, 0x00, 0x00, BitVec.ofInt 8 len]

/-- The command of `usim_read_record`. -/
def readRecordCmd (id : ℕ) (len : ℤ) : Apdu := [cla S, 0xb2, BitVec.ofNat 8 id, 0x04, BitVec.ofInt 8 len]

/-- The command of `usim_update_record`. -/
def updateRecordCmd (id : ℕ) (data : List Byte) : Apdu :=
  [cla S, 0xdc, BitVec.ofNat 8 id, 0x04, BitVec.ofNat 8 data.length] ++ data

/-- The command of `usim_update_binary`. -/
def updateBinaryCmd (offHigh offLow : Byte) (data : List Byte) : Apdu :=
  [cla S, 0xd6, offHigh, offLow, BitVec.ofNat 8 data.length] ++ data

/-- The command of `usim_admin_verify`. -/
def adminVerifyCmd (pin : List Byte) : Apdu := [cla S, 0x20, 0x00, 0x0a, 0x08] ++ pin

/-- `memcpy(cmd+5, buf, len)` into a `cmd` of 256 bytes. -/
def commandData (buf : Mem) (len : ℤ) : Card (List Byte) :=
  if 0 ≤ len ∧ len ≤ 251 then pure (bytes buf 0 len.toNat) else .fault

/-- `usim_update_record` -/
def updateRecord (id : ℕ) (len : ℤ) (buf : Mem) : Card Resp := do
  let data ← commandData buf len
  sendReceiveAPDU (updateRecordCmd S id data)

/-- `usim_update_binary` -/
def updateBinary (len : ℤ) (buf : Mem) (offHigh offLow : Byte) : Card Resp := do
  let data ← commandData buf len
  sendReceiveAPDU (updateBinaryCmd S offHigh offLow data)

end Commands

/-! ### Status words -/

/-- The bytes at `i` and `i + 1` of the response are `sw1` and `sw2`. -/
def Resp.sw (r : Resp) (i : ℤ) (sw1 sw2 : Byte) : Prop := r.data i = sw1 ∧ r.data (i + 1) = sw2

instance (r : Resp) (i : ℤ) (sw1 sw2 : Byte) : Decidable (r.sw i sw1 sw2) :=
  inferInstanceAs (Decidable (_ ∧ _))

/-- The answer to a SELECT says that the file does not exist. -/
def Resp.NotFound (r : Resp) : Prop := r.sw 1 0x6a 0x82

/-- The answer to a SELECT is `90 00`, `61 xx` or `9F xx`. -/
def Resp.Accepted (r : Resp) : Prop := r.sw 1 0x90 0x00 ∨ r.data 1 = 0x61 ∨ r.data 1 = 0x9f

/-- The answer to an UPDATE is `90 00`, or the `60 90` of the driver. -/
def Resp.Updated (r : Resp) : Prop := r.sw 1 0x90 0x00 ∨ r.sw 1 0x60 0x90

/-- The answer to an UPDATE asks for the admin PIN. -/
def Resp.Denied (r : Resp) : Prop := r.sw 1 0x69 0x82

instance (r : Resp) : Decidable r.NotFound := inferInstanceAs (Decidable (r.sw ..))
instance (r : Resp) : Decidable r.Accepted := inferInstanceAs (Decidable (_ ∨ _ ∨ _))
instance (r : Resp) : Decidable r.Updated := inferInstanceAs (Decidable (_ ∨ _))
instance (r : Resp) : Decidable r.Denied := inferInstanceAs (Decidable (r.sw ..))

/-! ### The file control template -/

/-- `usim_rec_t`: the length and the number of the records. -/
structure UsimRec where
  len : ℕ
  count : ℕ
deriving DecidableEq, Repr

/-- What `usim_parse_fcp_tmpl` fills in. -/
structure FcpInfo where
  fileLen : ℤ
  record : UsimRec
deriving DecidableEq, Repr

/-- What one TLV of the template at `pos` says: `USIM_TLV_FILE_DESC` and
`USIM_TLV_FILE_SIZE`. -/
def fcpTlv (buffer : Mem) (pos : ℤ) (info : FcpInfo) : FcpInfo :=
  if buffer pos = 0x82 then
    { info with
      record := ⟨(buffer (pos + 4)).toNat * 256 + (buffer (pos + 5)).toNat, (buffer (pos + 6)).toNat⟩ }
  else if buffer pos = 0x80 then
    if buffer (pos + 1) = 1 then { info with fileLen := (buffer (pos + 2)).toNat }
    else if buffer (pos + 1) = 2 then
      { info with fileLen := (buffer (pos + 2)).toNat * 256 + (buffer (pos + 3)).toNat }
    else info
  else info

/-- The loop of `usim_parse_fcp_tmpl`; `none` is the return value `-1`. A TLV
has at least two bytes, so `end - pos` rounds are enough. -/
def parseFcpLoop (buffer : Mem) (last : ℤ) : ℕ → ℤ → FcpInfo → Option FcpInfo
  | 0, _, _ => none
  | fuel + 1, pos, info =>
    if pos + 1 < last then
      let info := fcpTlv buffer pos info
      let pos := pos + (2 + (buffer (pos + 1)).toNat)
      if pos = last then some info else parseFcpLoop buffer last fuel pos info
    else none

/-- `usim_parse_fcp_tmpl`, from what the variables held before. -/
def parseFcpTmpl (buffer : Mem) (info : FcpInfo) : Option FcpInfo :=
  if buffer 1 ≠ 0x62 then none
  else parseFcpLoop buffer (3 + (buffer 2).toNat) (buffer 2).toNat 3 info

/-! ### Around the work on a file -/

/-- What a call finds besides the card: the sizes `malloc` gives memory for,
what fresh memory and variables that are not initialised hold, and the PIN in
the flash. -/
structure Env where
  malloc : ℤ → Bool
  heap : Mem
  uninit : FcpInfo
  adminPin : Option (List Byte)

/-- `VTQ_USIM_FILE_NOT_SUPPORTED` -/
def fileNotSupported : ℤ := -2

section Around

variable (S : Sim) {α : Type}

/-- The command that selects the application again. -/
def reselectCmd : Apdu :=
  match S.type with
  | .gsm => selectByIdCmd S S.dirFileid
  | .usim => selectByAidCmd S

/-- The end of a function: the application is selected again if the directory
was changed, whatever the card answers to that. -/
def leave (selectBack : Bool) (a : α) : Card α :=
  if selectBack then do
    let _ ← sendReceiveAPDU (reselectCmd S)
    pure a
  else pure a

/-- The start of a function: the directory is selected if one is given. `out`
makes a result of a return value; `body` learns whether to select back. -/
def withDir (dirFileid : ℤ) (out : ℤ → α) (body : Bool → Card α) : Card α :=
  if dirFileid ≠ 0 then do
    let resp ← sendReceiveAPDU (selectByIdCmd S (BitVec.ofInt 16 dirFileid))
    if resp.ret < 0 then pure (out resp.ret)
    else if resp.NotFound then pure (out fileNotSupported)
    else if ¬ resp.Accepted then pure (out (-1))
    else body true
  else body false

/-- The file is selected. One that is not found ends the function at once. -/
def withFile (fileid : Word) (selectBack : Bool) (out : ℤ → α) (body : Resp → Card α) : Card α := do
  let resp ← sendReceiveAPDU (selectByIdCmd S fileid)
  if resp.ret < 0 then leave S selectBack (out (-1))
  else if resp.NotFound then pure (out fileNotSupported)
  else if ¬ resp.Accepted then leave S selectBack (out (-1))
  else body resp

/-- The description of the file is fetched, in the length the SELECT gave. -/
def withDescription (resp : Resp) (selectBack : Bool) (out : ℤ → α) (body : Mem → Card α) : Card α := do
  let blen : ℤ := (resp.data 2).toNat
  let r ← sendReceiveAPDU (getResponseCmd S blen)
  if r.ret < 0 then leave S selectBack (out (-1))
  else if ¬ r.sw (blen + 1) 0x90 0x00 then leave S selectBack (out (-1))
  else body r.data

end Around

/-! ### Transparent files -/

section Files

variable (S : Sim) (E : Env)

/-- The update of a transparent file that is selected. When the card asks for
the PIN it is verified and the update sent once more. -/
def updateFile (len : ℤ) (buffer : Mem) (offLow offHigh : Byte) (selectBack : Bool) : Card ℤ := do
  let resp ← updateBinary S len buffer offHigh offLow
  if resp.ret < 0 then leave S selectBack (-1)
  else if resp.Denied then
    match E.adminPin with
    | none => leave S selectBack (-1)
    | some pin => do
      let resp ← sendReceiveAPDU (adminVerifyCmd S pin)
      if ¬ resp.sw 1 0x90 0x00 then leave S selectBack (-1)
      else
        let resp ← updateBinary S len buffer offHigh offLow
        if resp.ret < 0 then leave S selectBack (-1)
        else if ¬ resp.Updated then leave S selectBack (-1)
        else leave S selectBack 0
  else if ¬ resp.Updated then leave S selectBack (-1)
  else leave S selectBack 0

/-- `usim_write_transparent` -/
def writeTransparent (fileid : Word) (len : ℤ) (buffer : Mem) (offLow offHigh : Byte) (dirFileid : ℤ) :
    Card ℤ :=
  withDir S dirFileid id fun selectBack =>
    withFile S fileid selectBack id fun _ => updateFile S E len buffer offLow offHigh selectBack

/-- What a reading function leaves: its return value, `*len` and the buffer. -/
structure ReadOut where
  ret : ℤ
  len : ℤ
  buf : Mem

/-- The length of a transparent file in its description. -/
def transparentLen (buffer : Mem) : Option ℤ :=
  match S.type with
  | .usim => (parseFcpTmpl buffer E.uninit).map FcpInfo.fileLen
  | .gsm => some ((buffer 3).toNat * 256 + (buffer 4).toNat)

/-- `memcpy(buf, src, n)` into the caller's buffer; a negative length is a
`size_t` that no memory has. -/
def copyOut (buf : Mem) (src : Mem) (n : ℤ) : Card Mem :=
  if 0 ≤ n then pure (copy buf 0 src 1 n.toNat) else .fault

/-- The reading of a transparent file that is selected. -/
def readFile (resp : Resp) (len : ℤ) (buf : Mem) (selectBack : Bool) : Card ReadOut :=
  withDescription S resp selectBack (fun ret => ⟨ret, len, buf⟩) fun buffer =>
    match transparentLen S E buffer with
    | none => leave S selectBack ⟨-1, len, buf⟩
    | some len => do
      if ¬ E.malloc (len + 3) then leave S selectBack ⟨-1, len, buf⟩
      else
        let r ← sendReceiveAPDU (readBinaryCmd S len)
        if r.ret < 0 then leave S selectBack ⟨-1, len, buf⟩
        else if ¬ r.sw (len + 1) 0x90 0x00 then leave S selectBack ⟨-1, len, buf⟩
        else
          let buf ← copyOut buf r.data len
          leave S selectBack ⟨0, len, buf⟩

/-- `usim_read_transparent` -/
def readTransparent (fileid : Word) (len : ℤ) (buf : Mem) (dirFileid : ℤ) : Card ReadOut :=
  withDir S dirFileid (fun ret => ⟨ret, len, buf⟩) fun selectBack =>
    withFile S fileid selectBack (fun ret => ⟨ret, len, buf⟩) fun resp => readFile S E resp len buf selectBack

/-! ### Linear fixed files -/

/-- How a description gives the records. -/
inductive RecordInfo where
  | ok (record : UsimRec)
  /-- the template could not be parsed -/
  | bad
  /-- a division by a record size of `0` -/
  | divZero
deriving DecidableEq, Repr

/-- The records of a linear fixed file in its description: the template, or
`gsm_fci_ef_t` laid over the whole buffer. -/
def recordInfo (buffer : Mem) : RecordInfo :=
  match S.type with
  | .gsm =>
    if buffer 14 = 0 then .divZero
    else .ok ⟨(buffer 14).toNat,
      (((buffer 2).toNat * 256 + (buffer 3).toNat) / (buffer 14).toNat) % 256⟩
  | .usim =>
    match parseFcpTmpl buffer E.uninit with
    | none => .bad
    | some info => .ok info.record

/-- The loop of `usim_write_linearfixed` over the records from `i` on. -/
def writeRecords (len : ℤ) (buf : Mem) (selectBack : Bool) : ℕ → ℕ → Card ℤ
  | 0, _ => leave S selectBack 0
  | left + 1, i => do
    let resp ← updateRecord S i len buf
    if resp.ret < 0 then leave S selectBack (-1)
    else if ¬ resp.Updated then leave S selectBack (-1)
    else writeRecords len buf selectBack left (i + 1)

/-- The update of all records of a linear fixed file that is selected. -/
def updateRecords (resp : Resp) (len : ℤ) (buf : Mem) (selectBack : Bool) : Card ℤ :=
  withDescription S resp selectBack id fun buffer =>
    match recordInfo S E buffer with
    | .divZero => .fault
    | .bad => leave S selectBack (-1)
    | .ok record => writeRecords S len buf selectBack record.count 1

/-- `usim_write_linearfixed` -/
def writeLinearfixed (fileid : Word) (len : ℤ) (buf : Mem) (dirFileid : ℤ) : Card ℤ :=
  withDir S dirFileid id fun selectBack =>
    withFile S fileid selectBack id fun resp => updateRecords S E resp len buf selectBack

/-- The loop of `usim_read_linearfixed` over the records from `i` on: each
record is put where the one before was. -/
def readRecords (recLen : ℕ) (selectBack : Bool) : ℕ → ℕ → ℤ → Mem → Card ReadOut
  | 0, _, len, buf => leave S selectBack ⟨0, len, buf⟩
  | left + 1, i, len, buf => do
    let r ← sendReceiveAPDU (readRecordCmd S i recLen)
    if r.ret < 0 then leave S selectBack ⟨-1, len, buf⟩
    else if ¬ r.sw (recLen + 1) 0x90 0x00 then leave S selectBack ⟨-1, len, buf⟩
    else readRecords recLen selectBack left (i + 1) recLen (copy buf 0 r.data 1 recLen)

/-- The reading of the records of a linear fixed file that is selected. -/
def fetchRecords (resp : Resp) (len : ℤ) (buf : Mem) (selectBack : Bool) : Card ReadOut :=
  withDescription S resp selectBack (fun ret => ⟨ret, len, buf⟩) fun buffer =>
    match recordInfo S E buffer with
    | .divZero => .fault
    | .bad => leave S selectBack ⟨-1, len, buf⟩
    | .ok record => readRecords S record.len selectBack record.count 1 len buf

/-- `usim_read_linearfixed` -/
def readLinearfixed (fileid : Word) (len : ℤ) (buf : Mem) (dirFileid : ℤ) : Card ReadOut :=
  withDir S dirFileid (fun ret => ⟨ret, len, buf⟩) fun selectBack =>
    withFile S fileid selectBack (fun ret => ⟨ret, len, buf⟩) fun resp =>
      fetchRecords S E resp len buf selectBack

end Files

end Usim
end La12xx
