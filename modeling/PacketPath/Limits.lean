/-! Sizes that the two sides of the packet path agree on. -/

set_option autoImplicit false

namespace PacketPath.Limits

/-- Bytes in a platform page; every buffer and every message page is one page. -/
def pageSize : Nat := 4096

/-- The longest frame, without its checksum, that may be sent. -/
def maxFrame : Nat := 1518

/-- Bytes before the frame in a packet page; they hold its length. -/
def headerSize : Nat := 4

def maxBatch : Nat := 16

/-- Bytes of a receive buffer that the device may fill. -/
def receiveBuffer : Nat := 2048

def descriptorSize : Nat := 16

def ringAlignment : Nat := 128

end PacketPath.Limits
