import GasSub.Guarantees.AddressDialog
import GasSub.Guarantees.BadBlocks
import GasSub.Guarantees.BufferIntegrity
import GasSub.Guarantees.CaptureStart
import GasSub.Guarantees.ChannelIndependence
import GasSub.Guarantees.ChunkEcc
import GasSub.Guarantees.CommandFrame
import GasSub.Guarantees.CommandReplies
import GasSub.Guarantees.ConfigAfterReset
import GasSub.Guarantees.ConfigReception
import GasSub.Guarantees.ConfigRoundTrip
import GasSub.Guarantees.CutLatch
import GasSub.Guarantees.DamagedConfig
import GasSub.Guarantees.DateValidation
import GasSub.Guarantees.DispatchSafety
import GasSub.Guarantees.EventDelivery
import GasSub.Guarantees.FileUpload
import GasSub.Guarantees.FlashStore
import GasSub.Guarantees.FormattedReplies
import GasSub.Guarantees.FreshData
import GasSub.Guarantees.FtpFraming
import GasSub.Guarantees.KeyDelivery
import GasSub.Guarantees.ListShape
import GasSub.Guarantees.PathBuffer
import GasSub.Guarantees.PathResolution
import GasSub.Guarantees.PortCommand
import GasSub.Guarantees.PowerCut
import GasSub.Guarantees.RawPages
import GasSub.Guarantees.RecoverCondition
import GasSub.Guarantees.RenameProtocol
import GasSub.Guarantees.RenamedFile
import GasSub.Guarantees.Resynchronisation
import GasSub.Guarantees.Rs485Bounds
import GasSub.Guarantees.Rs485Frame
import GasSub.Guarantees.Rs485Transparency
import GasSub.Guarantees.SavedOptions
import GasSub.Guarantees.SelectDispatch
import GasSub.Guarantees.SendFootprint
import GasSub.Guarantees.SessionAccounting
import GasSub.Guarantees.SlotLiveness
import GasSub.Guarantees.ThresholdRoundTrip
import GasSub.Guarantees.TimerMode
import GasSub.Guarantees.TransmitWedge
import GasSub.Guarantees.Uart1Frame
import GasSub.Guarantees.UploadIdentity
import GasSub.Guarantees.UploadStream
import GasSub.Guarantees.WorkingDirectory
import GasSub.Library.Binary32
import GasSub.Library.BitMask
import GasSub.Library.BufferFill
import GasSub.Library.BusyFlag
import GasSub.Library.ByteMemory
import GasSub.Library.ByteWord
import GasSub.Library.CharArray
import GasSub.Library.CountedMap
import GasSub.Library.Decimal
import GasSub.Library.EventFlags
import GasSub.Library.Interleaving
import GasSub.Library.Latch
import GasSub.Library.LinkedList
import GasSub.Library.Ownership
import GasSub.Library.PostBox
import GasSub.Library.Run
import GasSub.Library.Terminator
import GasSub.Library.XorSum
import GasSub.Source.ConfigCreate
import GasSub.Source.ConfigFile
import GasSub.Source.DataPath
import GasSub.Source.EccRepair
import GasSub.Source.Eeprom
import GasSub.Source.EquipmentChain
import GasSub.Source.EquipmentList
import GasSub.Source.FtpCommand
import GasSub.Source.FtpEffects
import GasSub.Source.FtpFileCommands
import GasSub.Source.FtpHandlers
import GasSub.Source.FtpPath
import GasSub.Source.FtpReading
import GasSub.Source.FtpResponse
import GasSub.Source.FtpSelect
import GasSub.Source.FtpServer
import GasSub.Source.FtpSession
import GasSub.Source.FtpSlots
import GasSub.Source.FtpTransfers
import GasSub.Source.InitConf
import GasSub.Source.MbRtuMaster
import GasSub.Source.NandAddress
import GasSub.Source.NandChip
import GasSub.Source.NandFlash
import GasSub.Source.OnPaint
import GasSub.Source.PortEvent
import GasSub.Source.PortTimer
import GasSub.Source.ReadConfigFile
import GasSub.Source.Rs485Copies
import GasSub.Source.Rs485Memory
import GasSub.Source.Rs485Receive
import GasSub.Source.Rs485Send
import GasSub.Source.Sensor
import GasSub.Source.SensorOperation
import GasSub.Source.TcpTest
import GasSub.Source.Uart1Receive
import GasSub.Source.Uart1Send
import GasSub.Source.UploadPath
import GasSub.Source.UserKey
import GasSub.Source.UserSetAddr
import GasSub.Source.UserSetTime
import GasSub.Source.YaffsEcc
import GasSub.Source.YaffsNandDrv
import GasSub.Guarantees.CounterAlarm
import GasSub.Guarantees.PathAssociativity
import GasSub.Guarantees.Uart1Bounds
import GasSub.Guarantees.UneditedDialog
import GasSub.Guarantees.Calibration
import GasSub.Guarantees.KeyDecoding
import GasSub.Source.ShowInfo
import GasSub.Guarantees.DisplayStrings
import GasSub.Library.RoundRobin
import GasSub.Source.ListView
import GasSub.Guarantees.ListViewRows
import GasSub.Library.MemoryText
import GasSub.Source.FtpSessionMemory
import GasSub.Guarantees.CommandBuffer
import GasSub.Guarantees.FrameChecksum
import GasSub.Guarantees.LineFraming
import GasSub.Library.BitArray
import GasSub.Source.MbSlaveFunctions
import GasSub.Guarantees.SlaveRequests
import GasSub.Guarantees.SlaveSafety
import GasSub.Guarantees.MasterLine
import GasSub.Guarantees.MasterRequests
import GasSub.Guarantees.MasterSafety
import GasSub.Guarantees.ModbusNetwork
import GasSub.Guarantees.KernelQueues
