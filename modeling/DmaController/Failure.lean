/-!
The ways in which starting a driver, submitting a transfer and waiting for one can fail.
-/
namespace DmaController

/-- Why no driver was started. -/
inductive StartError
  | notIdentified
  | inboundUnsupported
  | outboundUnsupported
  | invalidConfig
  deriving DecidableEq, Repr

/-- Why a transfer was not submitted. -/
inductive TransferError
  | notSupported
  | queueFull
  | bufferExceeded
  | deviceError
  | invalidLength
  deriving DecidableEq, Repr

/-- Why a wait ended without its transfer. -/
inductive WaitError
  | timeout
  deriving DecidableEq, Repr

inductive Failure
  | start (cause : StartError)
  | transfer (cause : TransferError)
  | wait (cause : WaitError)
  deriving DecidableEq, Repr

namespace StartError

def name : StartError → String
  | notIdentified => "IdentificationFailed"
  | inboundUnsupported => "ReadNotSupported"
  | outboundUnsupported => "WriteNotSupported"
  | invalidConfig => "InvalidConfig"

def message : StartError → String
  | notIdentified => "DMAC identification failed"
  | inboundUnsupported => "read transfers not supported"
  | outboundUnsupported => "write transfers not supported"
  | invalidConfig => "invalid configuration"

def all : List StartError := [notIdentified, inboundUnsupported, outboundUnsupported, invalidConfig]

end StartError

namespace TransferError

def name : TransferError → String
  | notSupported => "NotSupported"
  | queueFull => "QueueFull"
  | bufferExceeded => "BufferExceeded"
  | deviceError => "DeviceError"
  | invalidLength => "InvalidLength"

def message : TransferError → String
  | notSupported => "transfer direction not supported"
  | queueFull => "transfer queue full"
  | bufferExceeded => "buffer capacity exceeded"
  | deviceError => "invalid transfer ID from device"
  | invalidLength => "invalid transfer length"

/-- The same call may succeed later. -/
def isTransient : TransferError → Bool
  | queueFull | deviceError => true
  | notSupported | bufferExceeded | invalidLength => false

def all : List TransferError :=
  [notSupported, queueFull, bufferExceeded, deviceError, invalidLength]

end TransferError

namespace WaitError

def name : WaitError → String
  | timeout => "Timeout"

def message : WaitError → String
  | timeout => "operation timed out"

def all : List WaitError := [timeout]

end WaitError

namespace Failure

def name : Failure → String
  | start cause => s!"Config({cause.name})"
  | transfer cause => s!"Dma({cause.name})"
  | wait cause => s!"Io({cause.name})"

def message : Failure → String
  | start cause => "config: " ++ cause.message
  | transfer cause => "dma: " ++ cause.message
  | wait cause => "io: " ++ cause.message

end Failure
end DmaController
