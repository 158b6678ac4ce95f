import Famicom.BusLog
import Famicom.Device
import Famicom.Main
import Famicom.Proofs.AddressMap.Routing
import Famicom.Proofs.Console.Delivery
import Famicom.Proofs.Console.FailingStep
import Famicom.Proofs.Console.SpriteTransfer
import Famicom.Proofs.Console.WholeFrames
import Famicom.Proofs.Controller.HostFeed
import Famicom.Proofs.Controller.SerialProtocol
import Famicom.Proofs.Cpu.Arbitration
import Famicom.Proofs.Cpu.Combinations
import Famicom.Proofs.Cpu.CycleCounts
import Famicom.Proofs.Cpu.DecimalFlag
import Famicom.Proofs.Cpu.FidelityLevels
import Famicom.Proofs.Cpu.Jamming
import Famicom.Proofs.Cpu.LongArithmetic
import Famicom.Proofs.Cpu.Returning
import Famicom.Proofs.Cpu.StackOrder
import Famicom.Proofs.Video.BlankLifecycle
import Famicom.Proofs.Video.DataBlocks
import Famicom.Proofs.Video.DotEffects
import Famicom.Proofs.Video.FirstLine
import Famicom.Proofs.Video.FrameLength
import Famicom.Proofs.Video.MirroringSwitches
import Famicom.Proofs.Video.OpenBus
import Famicom.Proofs.Video.PixelPriority
import Famicom.Proofs.Video.PixelStream
import Famicom.Proofs.Video.ScrollIncrements
import Famicom.Proofs.Video.SpriteZeroHit
