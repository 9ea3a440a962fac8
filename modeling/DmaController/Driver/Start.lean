import DmaController.Driver.Basic

/-!
Starting a driver: the core has to show the right signature and the directions that are asked for,
and the pool has to have room. A refusal writes no register.
-/
namespace DmaController

/-- Why no driver was started, and the pool that was meant for it. -/
structure Refusal (slots size : Nat) where
  cause : StartError
  pool : Pool slots size
  deriving DecidableEq, Repr

namespace Driver

variable {σ : Type} {slots size : Nat} [RegisterBus (World σ slots size)]

/-- The directions the core offers. A core without an interface register is taken to offer both. -/
def findDirections (version : Version) : BusM (World σ slots size) Directions := do
  if version.hasInterface then
    let interface := Interface.ofWord (← RegisterBlock.interface)
    BusM.log (.interfaceFound interface)
    return interface.directions
  else
    BusM.log (.interfaceMissing version)
    return {}

/-- The pool at the capacity that is asked for, or as near as it may come. -/
def sizePool (config : Config) (pool : Pool slots size) :
    BusM (World σ slots size) (Pool slots size) := do
  if let some warning := Pool.resizeWarning size config.maxTransfer then
    BusM.log warning
  return pool.resize config.maxTransfer

/-- Probes the core, sizes the pool, leaves cyclic mode and enables the core. -/
def start (config : Config) (pool : Pool slots size) :
    BusM (World σ slots size) (Except (Refusal slots size) (Driver slots size)) := do
  let word ← RegisterBlock.identification
  if word ≠ signature then
    BusM.log (.wrongIdentification word)
    return .error ⟨.notIdentified, pool⟩
  let version := Version.ofWord (← RegisterBlock.version)
  let peripheralId ← RegisterBlock.peripheralId
  BusM.log (.identified version peripheralId)
  let directions ← findDirections version
  if config.requireInbound && !directions.inbound then
    BusM.log .cannotFillMemory
    return .error ⟨.inboundUnsupported, pool⟩
  if config.requireOutbound && !directions.outbound then
    BusM.log .cannotEmptyMemory
    return .error ⟨.outboundUnsupported, pool⟩
  let pool ← sizePool config pool
  if pool.capacity = 0 then
    BusM.log .zeroCapacity
    return .error ⟨.invalidConfig, pool⟩
  RegisterBlock.clearBits Register.flags cyclicFlag
  RegisterBlock.enable
  return .ok { pool, config, version, peripheralId, directions }

end Driver
end DmaController
