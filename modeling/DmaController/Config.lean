import DmaController.Word

/-!
Limits of the controller, and the settings a driver is started with.
-/
namespace DmaController

/-- The longest transfer that surely stays within a 4 KiB page. -/
def transferLimit : Nat := 0xF00

/-- No transfer may cross a multiple of this address. -/
def transferBoundary : Nat := 4096

structure Config where
  /-- Bytes per slot; the pool lowers it to what its buffers and `transferLimit` allow. -/
  maxTransfer : Nat := transferLimit
  /-- Added to a host address to give the address the device uses. -/
  busOffset : Word := 0
  /-- Refuse a core that cannot fill memory. -/
  requireInbound : Bool := false
  /-- Refuse a core that cannot empty memory. -/
  requireOutbound : Bool := false
  /-- Microseconds a single inbound transfer is waited for. -/
  timeout : Word := 100000
  /-- Microseconds between two looks at the done bits. -/
  pollInterval : Word := 10
  deriving DecidableEq, Repr

namespace Config

def inbound : Config := { requireInbound := true }

def outbound : Config := { requireOutbound := true }

/-- The pause between two polls, never zero. -/
def pollPause (config : Config) : Nat := max config.pollInterval.toNat 1

/-- How many pauses fit into the timeout, at least one. -/
def pollCount (config : Config) : Nat := max (config.timeout.toNat / config.pollPause) 1

theorem pollPause_pos (config : Config) : 0 < config.pollPause := by
  unfold pollPause
  omega

theorem pollCount_pos (config : Config) : 0 < config.pollCount := by
  unfold pollCount
  omega

end Config
end DmaController
