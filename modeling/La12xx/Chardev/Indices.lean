/-
# Which indices from the user are checked

The thermal, command-line and watchdog devices together: an ioctl keeps within its arrays, or
refuses and changes nothing, exactly if the index it was given is in range, or the command
asks for it, or refuses for another reason (`indices_validated_iff`). Registering with the
first two asks for it; most commands do not.
-/
import La12xx.Chardev.CliIoctl
import La12xx.Chardev.TvdIoctl
import La12xx.Chardev.WdogIoctl

namespace La12xx
namespace Chardev

open Access

/-- **Which ioctls keep within their arrays**, whatever the user's structure holds at each
read of it. -/
theorem indices_validated_iff (coreMax : ℕ) :
    (∀ (e : TvdEnv) (c : TvdCall) (s : TvdMem) (cmd : TvdCmd),
        Validated (Arr.size coreMax) Eq s (gulTvdDevIoctl e c s cmd) ↔ TvdChecked e c s cmd) ∧
      (∀ (c : CliCall) (s : CliMem) (cmd : CliCmd),
        Validated (Arr.size coreMax) Eq s (gulCliDevIoctl c s cmd) ↔ CliChecked c coreMax cmd) ∧
      ∀ (c : WdogCall) (s : WdogMem) (cmd : WdogCmd),
        Validated (Arr.size coreMax) SameWdog s (gulWdogDevIoctl c s cmd) ↔ WdogChecked c s cmd :=
  ⟨fun _ _ _ cmd => tvd_validated_iff cmd, fun _ _ cmd => cli_validated_iff cmd, fun _ _ cmd => wdog_validated_iff cmd⟩

/-! ### Indices that get through -/

/-- A copied structure with the id `id`, which stays what it is. -/
def cliCall (id : BitVec 32) : CliCall := ⟨0, id, fun _ => id, fun _ => 0, 0, .closed, ⟨1, 2, 3, 4⟩⟩

def wdogCall (id : BitVec 32) : WdogCall := ⟨0, id, 0, .closed, 0, true, fun _ => true⟩

def tvdCall (id : BitVec 32) : TvdCall :=
  ⟨0, id, fun _ => id, .vspaTemp, 0, .closed, Tvd.defaultMtdThreshold, Tvd.defaultMtdThreshold,
    Tvd.defaultMtdThreshold, 2, 2⟩

/-- Nothing happens meanwhile. -/
def tvdEnv : TvdEnv := ⟨Tvd.bytes, 0, 0, id, (0, 40), (0, 40), 0⟩

/-- Cleared memory. -/
def clearedEvt : Notify.Priv := ⟨0, false, .null, 0, false, 0, 0⟩

def clearedTvd : TvdMem := ⟨fun _ => .zero, fun _ => clearedEvt, fun _ => some .zero⟩

def clearedCli : CliMem := ⟨fun _ => clearedEvt, fun _ => none⟩

def clearedWdog : WdogMem := ⟨fun _ => ⟨clearedEvt, 0, 0, 0, 0, false⟩, fun _ => 0⟩

/-- The fifth record of the thermal device can be deregistered, the command-line device sends to
a fifth modem, and the watchdog device gives the status of a second. -/
theorem indices_not_validated :
    (¬ ∀ (coreMax : ℕ) (e : TvdEnv) (c : TvdCall) (s : TvdMem) (cmd : TvdCmd),
        Validated (Arr.size coreMax) Eq s (gulTvdDevIoctl e c s cmd)) ∧
      (¬ ∀ (coreMax : ℕ) (c : CliCall) (s : CliMem) (cmd : CliCmd),
        Validated (Arr.size coreMax) Eq s (gulCliDevIoctl c s cmd)) ∧
      ¬ ∀ (coreMax : ℕ) (c : WdogCall) (s : WdogMem) (cmd : WdogCmd),
        Validated (Arr.size coreMax) SameWdog s (gulWdogDevIoctl c s cmd) := by
  refine ⟨fun h => ?_, fun h => ?_, fun h => ?_⟩
  · have hchecked := (tvd_validated_iff .deregisterEvefd).mp (h 1 tvdEnv (tvdCall 4) clearedTvd .deregisterEvefd)
    exact absurd (hchecked rfl) (by decide)
  · have hchecked := (cli_validated_iff .sendMsiToModem).mp (h 1 (cliCall 4) clearedCli .sendMsiToModem)
    exact absurd (hchecked rfl) (by decide)
  · have hchecked := (wdog_validated_iff .getStatus).mp (h 1 (wdogCall 1) clearedWdog .getStatus)
    exact absurd (hchecked rfl) (by decide)

end Chardev
end La12xx
