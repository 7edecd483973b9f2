import PacketPath.Host.Board
import PacketPath.Message.Request
import PacketPath.Report.Basic

/-! A report of the fixed numbers that a user of the library may have to know. -/

set_option autoImplicit false

namespace PacketPath.Report

def words (items : List UInt32) : Report :=
  .list (items.map fun item => .number item.toNat)

def registerConstants : List (String × Report) :=
  [("registers", .list (Register.all.map fun register =>
      .list [.text register.mnemonic, .number register.offset])),
    ("window", .number Register.windowSize), ("mta", .number Register.multicastEntries),
    ("ctrl_slu", .number Register.setLinkUp.toNat), ("status_lu", .number Register.linkUp.toNat),
    ("rctl", words [Register.Receive.enable, Register.Receive.unicastPromiscuous,
      Register.Receive.multicastPromiscuous, Register.Receive.longPackets,
      Register.Receive.noLoopback, Register.Receive.halfRingThreshold,
      Register.Receive.acceptBroadcast, Register.Receive.bufferSize2048,
      Register.Receive.stripChecksum]),
    ("tctl", words [Register.Transmit.enable, Register.Transmit.padShort,
      Register.Transmit.collisionThreshold, Register.Transmit.collisionDistance]),
    ("tipg", .number Register.standardGap.toNat), ("rah_av", .number Register.addressValid.toNat),
    ("rsrpd_mask", .number Register.smallPacketMask.toNat),
    ("irq_default", .number Cause.standard.bits.toNat),
    ("frame_errors", .number ReceiveErrors.fatal.bits.toNat)]

def sizeConstants : List (String × Report) :=
  [("desc_size", .number Limits.descriptorSize), ("ring_align", .number Limits.ringAlignment),
    ("page_size", .number Limits.pageSize), ("max_packet", .number Limits.maxFrame),
    ("header", .number Limits.headerSize), ("max_batch", .number Limits.maxBatch),
    ("rx_buffer", .number Limits.receiveBuffer),
    ("codes", words [Request.inputCode, Request.outputCode, Request.outputBatchCode])]

def defaultConstants : List (String × Report) :=
  let settings : Settings := {}
  let pump : PumpSettings := {}
  [("tx_ring", .number settings.transmitLength), ("rx_ring", .number settings.receiveLength),
    ("default_config", .fields [("tx", .number settings.transmitLength),
      ("rx", .number settings.receiveLength), ("tidv", .number settings.transmitDelay.toNat),
      ("rsrpd", .number settings.smallPacketThreshold.toNat),
      ("irq", .number settings.causes.bits.toNat)]),
    ("input_pages", .list [.number pump.inputPages, .number Settings.maxInputPages]),
    ("ns_env", .text pump.stack.text)]

def boardConstants : List (String × Report) :=
  [("vendor", .number PciFunction.supportedVendor.toNat),
    ("devices", .list (PciFunction.supportedModels.map fun model => .number model.toNat)),
    ("bar0", .list [hex Board.windowBase.toNat, .number Board.windowSize]),
    ("irq_line", .number Board.interruptLine.toNat), ("dma_base", hex Board.firstBase.toNat)]

def constants : Report :=
  .fields (registerConstants ++ sizeConstants ++ defaultConstants ++ boardConstants)

end PacketPath.Report
