/-
# Commands to several cores: the Hawk driver

`hawk_send_swcmd` of `gul_hawk.c` posts one command to every E200 core its
mask selects, rings, and then polls the cores in index order with one budget
of `HAWK_SWCMD_TIMEOUT_RETRIES` retries. The descriptor has a status word and
a result word per core.

The host is a program with one access to the descriptor per step; a run
interleaves its steps with the cores' in any way. A core takes the command
when its status word reads POSTED, and after any delay writes its result and
DONE, in either order. A core may still be at an earlier command when the
call starts: `current` tells the two apart. The words of the descriptor
besides status and result are left to the cores, whose answers are arbitrary,
and the copy of the descriptor is one step with the doorbell, before which no
core looks at it.
-/
import La12xx.Lib.Machine

namespace La12xx
namespace Hawk

open Machine

/-! ### Data -/

/-- `HAWK_SWCMD_TIMEOUT_RETRIES` -/
def hawkSwcmdTimeoutRetries : ℕ := 5

/-- `HAWK_SW_CMD_RESULT_OK`, for which the callers also write `!ret`. -/
def hawkSwCmdResultOk : ℤ := 0

/-- `EBUSY` -/
def ebusy : ℤ := 16

/-- What the driver takes from the host-interface headers. A status word that
`memset` has cleared is neither POSTED nor DONE. -/
structure HawkIf where
  e200CoreCount : ℕ
  statusFree : BitVec 32
  statusPosted : BitVec 32
  statusDone : BitVec 32
  posted_ne_free : statusPosted ≠ statusFree
  posted_ne_done : statusPosted ≠ statusDone
  done_ne_free : statusDone ≠ statusFree
  zero_ne_posted : 0 ≠ statusPosted
  zero_ne_done : 0 ≠ statusDone

/-- What a core is doing. -/
inductive Core where
  | idle
  /-- it has taken a command -/
  | executing (current : Bool)
  /-- it has written the result, not yet DONE -/
  | wroteResult (current : Bool)
  /-- it has written DONE, not yet the result -/
  | wroteDone (current : Bool)
deriving DecidableEq, Repr

/-- The core will still write DONE; whether for the current command. -/
def Core.pending : Core → Option Bool
  | .executing current | .wroteResult current => some current
  | .idle | .wroteDone _ => none

/-- The same, at an earlier command. -/
def Core.earlier : Core → Core
  | .idle => .idle
  | .executing _ => .executing false
  | .wroteResult _ => .wroteResult false
  | .wroteDone _ => .wroteDone false

/-- Where `hawk_send_swcmd` stands, by its next access to the descriptor. -/
inductive HawkPc where
  /-- the busy test of core `i` -/
  | busyTest (i : ℕ)
  /-- the copy and the doorbell -/
  | post
  /-- the head of the loop over the cores -/
  | poll (i retries : ℕ)
  /-- the head of the waiting loop -/
  | wait (i retries : ℕ) (cmdStatus : BitVec 32)
  | readResult (i retries : ℕ)
  /-- the label `out`: core `i` is marked FREE next -/
  | out (i : ℕ)
  | returned
deriving DecidableEq, Repr

/-- The descriptor, the cores, and the host. `completed` is the cores that
have written DONE for the command of this call, `failed` those that have
written a result other than OK for it, and `confirmed` those whose result was
read as OK while they were `completed`. -/
structure HawkState where
  status : ℕ → BitVec 32
  result : ℕ → BitVec 32
  cores : ℕ → Core
  pc : HawkPc
  ret : ℤ
  completed : ℕ → Bool
  failed : ℕ → Bool
  confirmed : ℕ → Bool

/-- Who moves: the host, or core `i`. -/
inductive HawkInput where
  | host
  | take (i : ℕ)
  | result (i : ℕ) (v : BitVec 32)
  | done (i : ℕ)

/-! ### The host -/

section Host

variable (H : HawkIf) (coreMask : BitVec 32)

/-- `(1 << i) & sw_cmd->core_mask` -/
def selected (i : ℕ) : Bool := coreMask.getLsbD i

/-- The status words of the local command, which `hawk_get_swcmd` has cleared. -/
def postedStatus (i : ℕ) : BitVec 32 := if selected coreMask i then H.statusPosted else 0

/-- `hawk_send_swcmd`, up to its next access. -/
def hawkSendSwcmd (s : HawkState) : HawkState :=
  match s.pc with
  | .busyTest i =>
    if i < H.e200CoreCount then
      if s.status i ≠ H.statusFree then { s with pc := .returned, ret := -ebusy }
      else { s with pc := .busyTest (i + 1) }
    else { s with pc := .post }
  | .post =>
    { s with pc := .poll 0 hawkSwcmdTimeoutRetries
             status := fun i => if i < H.e200CoreCount then postedStatus H coreMask i else s.status i
             result := fun i => if i < H.e200CoreCount then 0 else s.result i }
  | .poll i retries =>
    if i < H.e200CoreCount then
      if selected coreMask i then { s with pc := .wait i retries (s.status i) }
      else { s with pc := .poll (i + 1) retries }
    else { s with pc := .out 0 }
  | .wait i retries cmdStatus =>
    if retries ≠ 0 ∧ cmdStatus ≠ H.statusDone then
      -- the source reads `&remote_cmd->status`, which is the word of core 0
      { s with pc := .wait i (retries - 1) (s.status 0) }
    else if retries = 0 ∧ cmdStatus ≠ H.statusDone then { s with pc := .out 0, ret := -ebusy }
    else { s with pc := .readResult i retries }
  | .readResult i retries =>
    let confirmed := s.completed i && decide (s.status i = H.statusDone) &&
      decide ((s.result i).toInt = hawkSwCmdResultOk)
    { s with pc := .poll (i + 1) retries, ret := (s.result i).toInt,
             confirmed := Function.update s.confirmed i confirmed }
  | .out i =>
    if i < H.e200CoreCount then
      { s with pc := .out (i + 1), status := Function.update s.status i H.statusFree }
    else { s with pc := .returned }
  | .returned => s

/-! ### The cores -/

/-- The command of this call is in the descriptor. -/
def HawkPc.isPosted : HawkPc → Bool
  | .busyTest _ | .post => false
  | _ => true

/-- Core `i` takes a posted command. -/
def coreTake (s : HawkState) (i : ℕ) : HawkState :=
  if i < H.e200CoreCount ∧ s.cores i = .idle ∧ s.status i = H.statusPosted then
    { s with cores := Function.update s.cores i (.executing s.pc.isPosted) }
  else s

/-- The result word of core `i` becomes `v`. -/
def writeResult (s : HawkState) (i : ℕ) (v : BitVec 32) (core : Core) (current : Bool) : HawkState :=
  { s with cores := Function.update s.cores i core, result := Function.update s.result i v,
           failed := Function.update s.failed i
             (s.failed i || (current && decide (v.toInt ≠ hawkSwCmdResultOk))) }

/-- Core `i` writes the result of its command. -/
def coreResult (s : HawkState) (i : ℕ) (v : BitVec 32) : HawkState :=
  match s.cores i with
  | .executing current => writeResult s i v (.wroteResult current) current
  | .wroteDone current => writeResult s i v .idle current
  | _ => s

/-- The status word of core `i` becomes DONE. -/
def writeDone (s : HawkState) (i : ℕ) (core : Core) (current : Bool) : HawkState :=
  { s with cores := Function.update s.cores i core, status := Function.update s.status i H.statusDone,
           completed := Function.update s.completed i (s.completed i || current) }

/-- Core `i` writes DONE for its command. -/
def coreDone (s : HawkState) (i : ℕ) : HawkState :=
  match s.cores i with
  | .executing current => writeDone H s i (.wroteDone current) current
  | .wroteResult current => writeDone H s i .idle current
  | _ => s

/-- One step of the system. -/
def hawkStep (s : HawkState) : HawkInput → HawkState × Unit
  | .host => (hawkSendSwcmd H coreMask s, ())
  | .take i => (coreTake H s i, ())
  | .result i v => (coreResult s i v, ())
  | .done i => (coreDone H s i, ())

/-- A call starts, with anything in the descriptor and the cores at anything
earlier. -/
def hawkStart (status result : ℕ → BitVec 32) (cores : ℕ → Core) : HawkState where
  status := status
  result := result
  cores := fun i => (cores i).earlier
  pc := .busyTest 0
  ret := 0
  completed := fun _ => false
  failed := fun _ => false
  confirmed := fun _ => false

/-- The call returns OK only if every core it selected had written DONE for
its command, with OK for the result, when its result was read, and none of
them reports an error for it. -/
def Honest (s : HawkState) : Prop :=
  s.pc = .returned → s.ret = hawkSwCmdResultOk →
    ∀ i < H.e200CoreCount, selected coreMask i = true → s.confirmed i = true ∧ s.failed i = false

/-- A core writes DONE for the command of this call only after its result. -/
def ResultFirst (s : HawkState) : HawkInput → Prop
  | .done i => s.cores i ≠ .executing true
  | .host | .take _ | .result _ _ => True

/-- The call finds the descriptor busy, or selects no core. -/
def NoCore (status : ℕ → BitVec 32) : Prop :=
  (∃ i < H.e200CoreCount, status i ≠ H.statusFree) ∨ ∀ i < H.e200CoreCount, selected coreMask i = false

/-- Or it selects one core, and neither that core nor core 0 will still write
DONE for an earlier command. -/
def OneCore (status : ℕ → BitVec 32) (cores : ℕ → Core) : Prop :=
  NoCore H coreMask status ∨
  ∃ i < H.e200CoreCount, selected coreMask i = true ∧
    (∀ j < H.e200CoreCount, selected coreMask j = true → j = i) ∧
    (cores i).pending = none ∧ (cores 0).pending = none

end Host

end Hawk
end La12xx
