import DmaController.Word

/-!
The register map: byte offsets of the registers and the bits in them.
-/
namespace DmaController

/-- Byte offset of a register in the controller's window. -/
abbrev Offset := Nat

namespace Register

def version : Offset := 0x000
def peripheralId : Offset := 0x004
def identification : Offset := 0x00C
/-- Directions and bus widths; present from version 4.4 on. -/
def interface : Offset := 0x010
def irqMask : Offset := 0x080
/-- Writing a one clears that status bit. -/
def irqStatus : Offset := 0x084
def control : Offset := 0x400
def transferId : Offset := 0x404
def submit : Offset := 0x408
def flags : Offset := 0x40C
def destination : Offset := 0x410
def source : Offset := 0x414
/-- Holds the number of bytes less one. -/
def length : Offset := 0x418
/-- Holds one bit for each transfer id. -/
def done : Offset := 0x428
def progress : Offset := 0x448

end Register

/-- "DMAC" in the identification register marks a controller. -/
def signature : Word := 0x444D4143

namespace Irq

def queued : Word := 1
def completed : Word := 2
def all : Word := 3

end Irq

namespace Control

/-- Clearing this bit aborts every outstanding transfer. -/
def enable : Word := 1
def pause : Word := 2

end Control

/-- The submit bit queues the programmed transfer and stays set until it is accepted. -/
def submitBit : Word := 1

def cyclicFlag : Word := 1

/-- The id field is wide enough to show an id that is out of range. -/
def transferIdField : Word := 0x1F

def progressField : Word := 0x00FFFFFF

end DmaController
