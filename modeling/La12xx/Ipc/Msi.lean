/-
# Who owns an MSI

`gul_pci.c` hands out the device's MSI lines from one table, `gul_dev->irq`,
to the sub-drivers (`gul_dev_get_msi`, `gul_dev_put_msi`). The IPC driver
takes one for each channel that user space registers and copies what it took
into the channel (`register_ipc_channel_irq`), so the busy mark exists twice.

The model keeps both tables, the lines the kernel has handed to `request_irq`
for each channel, and the indices the other sub-drivers hold. The pointers
`gul_dev` and `gul_dev->ipc_priv`, which `register_ipc_channel_irq` tests, are
those of a probed device.
-/
import La12xx.Ipc.PciSpace

namespace La12xx
namespace Ipc

open Machine

/-! ### Data -/

/-- `GUL_MSI_IRQ_FREE` -/
def gulMsiIrqFree : ℤ := 0x45455246

/-- `GUL_MSI_IRQ_BUSY` -/
def gulMsiIrqBusy : ℤ := 0x59535542

/-- `ENOENT` -/
def enoent : ℤ := 2

/-- `EBUSY` -/
def ebusy : ℤ := 16

/-- The sizes of the two tables, from headers outside the repository. -/
structure MsiIf where
  gulMsiMaxCnt : ℕ
  ipcMaxChannelCount : ℕ

/-- An index of `gul_dev->irq`. -/
def MsiIf.IsMsi (M : MsiIf) (i : ℤ) : Prop := 0 ≤ i ∧ i < M.gulMsiMaxCnt

/-- An index of `asyn_chans`. -/
def MsiIf.IsChan (M : MsiIf) (ch : ℤ) : Prop := 0 ≤ ch ∧ ch < M.ipcMaxChannelCount

/-- `struct irq_info`. -/
structure IrqInfo where
  irqVal : ℤ
  msiVal : ℤ
  free : ℤ
  coreId : ℤ
deriving DecidableEq, Repr, Inhabited

/-- `struct ipc_Irq`. -/
structure IpcIrq where
  free : ℤ
  irqNum : ℤ
  msiValue : ℤ
  irqIndex : ℤ
  irqNumTxt : Option String
deriving DecidableEq, Repr, Inhabited

/-- What `eventfd_ctx_fileget` returns: a null pointer, an error pointer (for
a file that is no event fd), or a context. -/
inductive EventfdCtx where
  | null
  | errPtr (err : ℤ)
  | ctx (id : ℕ)
deriving DecidableEq, Repr, Inhabited

/-- `struct ipc_chan`. -/
structure IpcChan where
  evtFdCtxt : EventfdCtx
  ipcIrq : IpcIrq
deriving DecidableEq, Repr, Inhabited

/-- The device's MSI table, the channels of its IPC device, the lines that
`request_irq` has taken with a channel as its `dev_id`, and the indices the
other sub-drivers got and have not put. -/
structure MsiState where
  irq : ℤ → IrqInfo
  asynChans : ℤ → IpcChan
  requested : ℤ → List ℤ
  others : List ℤ
deriving Inhabited

/-- The lines the functions below write with `dev_err`. -/
inductive MsiErr where
  /-- `error : Invalid IPC channel number` -/
  | invalidChannel
  /-- `no memory` -/
  | noMemory
  /-- `request irq err - %d` -/
  | requestIrqErr (ret : ℤ)
  /-- `efd file(0x%px) or evt_fd_ctxt(0x%px) is invalid` -/
  | efdInvalid
  /-- `MSI already free` -/
  | msiAlreadyFree
deriving DecidableEq, Repr

/-! ### The MSI table -/

/-- The loop of `PCI_INT_MODE_MULTIPLE_MSI` in `gul_dev_set_interrupt_capability`. -/
def gulDevSetInterruptCapability (M : MsiIf) (irq : ℤ → IrqInfo) (pdevIrq numPossibleCpus : ℤ) :
    ℤ → IrqInfo :=
  fun i => if 0 ≤ i ∧ i < M.gulMsiMaxCnt then ⟨pdevIrq + i, i, gulMsiIrqFree, i % numPossibleCpus⟩
    else irq i

/-- `gul_dev_get_msi`: a free index of this core, else any free index. -/
def gulDevGetMsi (M : MsiIf) (irq : ℤ → IrqInfo) (coreId : ℤ) : (ℤ → IrqInfo) × ℤ :=
  let found := (List.range M.gulMsiMaxCnt).find? fun i : ℕ =>
    decide ((irq i).free = gulMsiIrqFree ∧ (irq i).coreId = coreId)
  let found := match found with
    | some index => some index
    | none => (List.range M.gulMsiMaxCnt).find? fun i : ℕ => decide ((irq i).free = gulMsiIrqFree)
  match found with
  | some index => (Function.update irq index { irq index with free := gulMsiIrqBusy }, index)
  | none => (irq, -enoent)

/-- `gul_dev_put_msi`. -/
def gulDevPutMsi (M : MsiIf) (irq : ℤ → IrqInfo) (index : ℤ) : (ℤ → IrqInfo) × List MsiErr :=
  if 0 ≤ index ∧ index < M.gulMsiMaxCnt then
    if (irq index).free = gulMsiIrqBusy then
      (Function.update irq index { irq index with free := gulMsiIrqFree }, [])
    else (irq, [.msiAlreadyFree])
  else (irq, [])

/-! ### Channels -/

/-- What a registration meets: the processor it runs on, the event fds of the
calling process, and the answers of `kmalloc` and `request_irq`. -/
structure RegEnv where
  smpProcessorId : ℤ
  eventfdCtxFileget : BitVec 32 → EventfdCtx
  kmalloc : Bool
  requestIrq : ℤ

/-- `register_ipc_channel_irq`. -/
def registerIpcChannelIrq (M : MsiIf) (s : MsiState) (ch : ℤ) (fd : BitVec 32) (e : RegEnv) :
    MsiState × ℤ × List MsiErr :=
  if ch < 0 ∨ M.ipcMaxChannelCount ≤ ch then (s, -einval, [.invalidChannel]) else
  let (irq, index) := gulDevGetMsi M s.irq e.smpProcessorId
  if 0 ≤ index ∧ index < M.gulMsiMaxCnt then
    let ipcIrq := { (s.asynChans ch).ipcIrq with
      irqNum := (irq index).irqVal, msiValue := (irq index).msiVal, free := (irq index).free,
      irqIndex := index }
    let evtFdCtxt := e.eventfdCtxFileget fd
    if evtFdCtxt ≠ .null then
      if e.kmalloc then
        let ipcIrq := { ipcIrq with irqNumTxt := some ("ipc_ch_irq_" ++ toString ipcIrq.irqNum) }
        let asynChans := Function.update s.asynChans ch ⟨evtFdCtxt, ipcIrq⟩
        if e.requestIrq < 0 then
          (⟨irq, asynChans, s.requested, s.others⟩, e.requestIrq, [.requestIrqErr e.requestIrq])
        else
          let requested := Function.update s.requested ch (ipcIrq.irqNum :: s.requested ch)
          (⟨irq, asynChans, requested, s.others⟩, e.requestIrq, [])
      else
        -- `ret` is still 0 here
        let asynChans := Function.update s.asynChans ch ⟨evtFdCtxt, { ipcIrq with irqNumTxt := none }⟩
        (⟨irq, asynChans, s.requested, s.others⟩, 0, [.noMemory])
    else
      let asynChans := Function.update s.asynChans ch ⟨evtFdCtxt, ipcIrq⟩
      (⟨irq, asynChans, s.requested, s.others⟩, -einval, [.efdInvalid])
  else ({ s with irq := irq }, -ebusy, [])

/-- `deregister_ipc_channel_irq`. The text pointer stays behind its `kfree`. -/
def deregisterIpcChannelIrq (M : MsiIf) (s : MsiState) (ch : ℤ) : MsiState × List MsiErr :=
  if ch < 0 ∨ M.ipcMaxChannelCount ≤ ch then (s, [.invalidChannel]) else
  let c := s.asynChans ch
  if c.ipcIrq.free = gulMsiIrqBusy then
    let requested := Function.update s.requested ch ((s.requested ch).erase c.ipcIrq.irqNum)
    let (irq, errs) := gulDevPutMsi M s.irq c.ipcIrq.irqIndex
    let ipcIrq := { c.ipcIrq with free := (irq c.ipcIrq.irqIndex).free, irqIndex := 0 }
    (⟨irq, Function.update s.asynChans ch { c with ipcIrq := ipcIrq }, requested, s.others⟩, errs)
  else (s, [])

/-! ### Requests -/

/-- `ipc_eventfd_t`. -/
structure IpcEventfd where
  ipcChannelNum : ℤ
  efd : BitVec 32
deriving DecidableEq, Repr

/-- One request: the two ioctls, with `none` for a failing `copy_from_user`
and `copyOut` for the success of `copy_to_user`, or a call of another
sub-driver. -/
inductive MsiReq where
  | channelRegister (ipcChannel : Option IpcEventfd) (e : RegEnv) (copyOut : Bool)
  | channelDeregister (ipcChannel : Option IpcEventfd)
  | getMsi (coreId : ℤ)
  | putMsi (index : ℤ)

/-- What a request returns: the value, the MSI handed to user space, and the
error lines. -/
structure MsiOut where
  ret : ℤ
  msiValue : Option ℤ
  errs : List MsiErr
deriving DecidableEq, Repr

/-- `IOCTL_GUL_IPC_CHANNEL_REGISTER`. -/
def channelRegister (M : MsiIf) (s : MsiState) (ipcChannel : Option IpcEventfd) (e : RegEnv)
    (copyOut : Bool) : MsiState × MsiOut :=
  match ipcChannel with
  | none => (s, ⟨-efault, none, []⟩)
  | some c =>
    if c.ipcChannelNum < 0 then (s, ⟨-efault, none, []⟩) else
    let (s, ret, errs) := registerIpcChannelIrq M s c.ipcChannelNum c.efd e
    if ret < 0 then (s, ⟨-efault, none, errs⟩) else
    if copyOut then (s, ⟨0, some (s.asynChans c.ipcChannelNum).ipcIrq.msiValue, errs⟩)
    else (s, ⟨-efault, none, errs⟩)

/-- `IOCTL_GUL_IPC_CHANNEL_DEREGISTER`. -/
def channelDeregister (M : MsiIf) (s : MsiState) (ipcChannel : Option IpcEventfd) : MsiState × MsiOut :=
  match ipcChannel with
  | none => (s, ⟨-efault, none, []⟩)
  | some c =>
    let (s, errs) := deregisterIpcChannelIrq M s c.ipcChannelNum
    (s, ⟨0, none, errs⟩)

/-- One step of the system. Another sub-driver keeps the index it got, and
puts only an index it keeps. -/
def msiStep (M : MsiIf) (s : MsiState) : MsiReq → MsiState × MsiOut
  | .channelRegister c e copyOut => channelRegister M s c e copyOut
  | .channelDeregister c => channelDeregister M s c
  | .getMsi coreId =>
    let (irq, index) := gulDevGetMsi M s.irq coreId
    if 0 ≤ index then ({ s with irq := irq, others := index :: s.others }, ⟨index, none, []⟩)
    else ({ s with irq := irq }, ⟨index, none, []⟩)
  | .putMsi index =>
    if index ∈ s.others then
      let (irq, errs) := gulDevPutMsi M s.irq index
      ({ s with irq := irq, others := s.others.erase index }, ⟨0, none, errs⟩)
    else (s, ⟨0, none, []⟩)

/-- A device whose interrupts have just been set up. The memory of the IPC
device comes from `kmalloc`, so its channels hold anything. -/
def msiSetup (M : MsiIf) (irq : ℤ → IrqInfo) (pdevIrq numPossibleCpus : ℤ) (mem : ℤ → IpcChan) :
    MsiState :=
  ⟨gulDevSetInterruptCapability M irq pdevIrq numPossibleCpus, mem, fun _ => [], []⟩

/-! ### What a step does -/

/-- Nothing a registration asks the kernel for fails. -/
def RegEnv.Grants (e : RegEnv) (fd : BitVec 32) : Prop :=
  e.eventfdCtxFileget fd ≠ .null ∧ e.kmalloc = true ∧ 0 ≤ e.requestIrq

section Cases

variable {M : MsiIf} {s : MsiState}

/-- The index is marked busy, or free. -/
def mark (irq : ℤ → IrqInfo) (i v : ℤ) : ℤ → IrqInfo :=
  Function.update irq i { irq i with free := v }

@[simp] theorem mark_free_self (irq : ℤ → IrqInfo) (i v : ℤ) : (mark irq i v i).free = v := by
  simp [mark]

theorem mark_of_ne (irq : ℤ → IrqInfo) {i j : ℤ} (v : ℤ) (h : j ≠ i) : mark irq i v j = irq j := by
  simp [mark, h]

theorem busy_ne_free : gulMsiIrqBusy ≠ gulMsiIrqFree := by decide

/-- `gul_dev_get_msi` takes a free index, or there is none. -/
theorem gulDevGetMsi_cases (M : MsiIf) (irq : ℤ → IrqInfo) (c : ℤ) :
    (∃ i, M.IsMsi i ∧ (irq i).free = gulMsiIrqFree ∧
      gulDevGetMsi M irq c = (mark irq i gulMsiIrqBusy, i)) ∨
    ((∀ i, M.IsMsi i → (irq i).free ≠ gulMsiIrqFree) ∧ gulDevGetMsi M irq c = (irq, -enoent)) := by
  unfold gulDevGetMsi
  rcases h1 : (List.range M.gulMsiMaxCnt).find? (fun i : ℕ =>
      decide ((irq i).free = gulMsiIrqFree ∧ (irq i).coreId = c)) with _ | i
  · rcases h2 : (List.range M.gulMsiMaxCnt).find? (fun i : ℕ =>
        decide ((irq i).free = gulMsiIrqFree)) with _ | i
    · right
      refine ⟨fun i hi => ?_, by simp⟩
      have := List.find?_eq_none.mp h2 i.toNat (List.mem_range.mpr (by have := hi.1; have := hi.2; omega))
      rwa [Int.toNat_of_nonneg hi.1, decide_eq_true_iff] at this
    · left
      have hm := List.mem_range.mp (List.mem_of_find?_eq_some h2)
      have hf := List.find?_some h2
      rw [decide_eq_true_iff] at hf
      exact ⟨i, ⟨by omega, by omega⟩, hf, by simp [mark]⟩
  · left
    have hm := List.mem_range.mp (List.mem_of_find?_eq_some h1)
    have hf := List.find?_some h1
    rw [decide_eq_true_iff] at hf
    exact ⟨i, ⟨by omega, by omega⟩, hf.1, by simp [mark]⟩

theorem gulDevPutMsi_of_busy {irq : ℤ → IrqInfo} {i : ℤ} (hi : M.IsMsi i)
    (hb : (irq i).free = gulMsiIrqBusy) : gulDevPutMsi M irq i = (mark irq i gulMsiIrqFree, []) := by
  unfold gulDevPutMsi
  rw [if_pos (show 0 ≤ i ∧ i < M.gulMsiMaxCnt from hi), if_pos hb]
  rfl

/-- A registration takes a free index into the channel, whatever happens
afterwards; or the channel does not exist, or no index is free. -/
theorem registerIpcChannelIrq_cases (M : MsiIf) (s : MsiState) (ch : ℤ) (fd : BitVec 32) (e : RegEnv) :
    ((registerIpcChannelIrq M s ch fd e).1 = s ∧
      (M.IsChan ch → ∀ i, M.IsMsi i → (s.irq i).free ≠ gulMsiIrqFree)) ∨
    (M.IsChan ch ∧ ∃ i c, M.IsMsi i ∧ (s.irq i).free = gulMsiIrqFree ∧
      c.ipcIrq.free = gulMsiIrqBusy ∧ c.ipcIrq.irqIndex = i ∧
      ((e.Grants fd ∧ (registerIpcChannelIrq M s ch fd e).1 =
          ⟨mark s.irq i gulMsiIrqBusy, Function.update s.asynChans ch c,
            Function.update s.requested ch (c.ipcIrq.irqNum :: s.requested ch), s.others⟩) ∨
        (¬ e.Grants fd ∧ (registerIpcChannelIrq M s ch fd e).1 =
          ⟨mark s.irq i gulMsiIrqBusy, Function.update s.asynChans ch c, s.requested, s.others⟩))) := by
  by_cases hch : ch < 0 ∨ M.ipcMaxChannelCount ≤ ch
  · left
    refine ⟨by rw [registerIpcChannelIrq, if_pos hch], fun h => ?_⟩
    have := h.1
    have := h.2
    omega
  have hch' : M.IsChan ch := ⟨by omega, by omega⟩
  rcases gulDevGetMsi_cases M s.irq e.smpProcessorId with ⟨i, hi, hf, hg⟩ | ⟨hno, hg⟩
  · right
    have hi' : 0 ≤ i ∧ i < M.gulMsiMaxCnt := hi
    refine ⟨hch', i, ?_⟩
    unfold registerIpcChannelIrq
    rw [if_neg hch, hg]
    simp only [hi', and_self, if_true]
    by_cases h1 : e.eventfdCtxFileget fd = .null
    · rw [if_neg (not_not.mpr h1)]
      exact ⟨⟨_, _⟩, hi, hf, by simp, rfl, Or.inr ⟨fun h => h.1 h1, rfl⟩⟩
    rw [if_pos h1]
    by_cases h2 : e.kmalloc = true
    · rw [if_pos h2]
      by_cases h3 : e.requestIrq < 0
      · rw [if_pos h3]
        exact ⟨⟨_, _⟩, hi, hf, by simp, rfl, Or.inr ⟨fun h => absurd h.2.2 (by omega), rfl⟩⟩
      · rw [if_neg h3]
        exact ⟨⟨_, _⟩, hi, hf, by simp, rfl, Or.inl ⟨⟨h1, h2, by omega⟩, rfl⟩⟩
    · rw [if_neg h2]
      exact ⟨⟨_, _⟩, hi, hf, by simp, rfl, Or.inr ⟨fun h => h2 h.2.1, rfl⟩⟩
  · left
    refine ⟨?_, fun _ => hno⟩
    unfold registerIpcChannelIrq
    rw [if_neg hch, hg]
    simp [enoent]

end Cases

end Ipc
end La12xx
