import DmaController.Register

/-!
What a controller says about itself: its version, the buses on its two sides, and the directions
in which it can move data.
-/
namespace DmaController

structure Version where
  major : Nat
  minor : Nat
  patch : Nat
  deriving DecidableEq, Repr, Ord

namespace Version

def ofWord (raw : Word) : Version where
  major := (raw >>> 16).toNat
  minor := (raw >>> 8 &&& 0xFF).toNat
  patch := (raw &&& 0xFF).toNat

/-- From 4.4 on there is an interface register; older 4.x cores have none. -/
def hasInterface (version : Version) : Bool :=
  version.major > 4 || version.major == 4 && version.minor >= 4

def text (version : Version) : String :=
  s!"{version.major}.{version.minor}.{version.patch}"

end Version

/-- The kind of bus on one side of the core. -/
inductive BusKind
  | memoryMapped
  | stream
  | fifo
  | reserved
  deriving DecidableEq, Repr

namespace BusKind

def ofWord (field : Word) : BusKind :=
  if field = 0 then memoryMapped
  else if field = 1 then stream
  else if field = 2 then fifo
  else reserved

def name : BusKind → String
  | memoryMapped => "MemoryMapped"
  | stream => "Stream"
  | fifo => "Fifo"
  | reserved => "Reserved"

end BusKind

/-- Inbound transfers fill memory from the peripheral; outbound ones empty it to the peripheral. -/
structure Directions where
  inbound : Bool := true
  outbound : Bool := true
  deriving DecidableEq, Repr

/-- One side of the core: its bus and the binary logarithm of the bytes moved in a beat. -/
structure Side where
  kind : BusKind
  beatLog : Nat
  deriving DecidableEq, Repr

/-- The decoded interface register. -/
structure Interface where
  destination : Side
  source : Side
  deriving DecidableEq, Repr

namespace Interface

def ofWord (raw : Word) : Interface where
  destination := ⟨BusKind.ofWord (raw >>> 4 &&& 3), (raw &&& 0xF).toNat⟩
  source := ⟨BusKind.ofWord (raw >>> 12 &&& 3), (raw >>> 8 &&& 0xF).toNat⟩

/-- Filling memory needs it on the destination side, emptying it on the source side. -/
def directions (interface : Interface) : Directions where
  inbound := interface.destination.kind == .memoryMapped
  outbound := interface.source.kind == .memoryMapped

end Interface
end DmaController
