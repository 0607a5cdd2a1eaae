import AndroidVendor.Lib.Loop
import AndroidVendor.Lib.Machine
import AndroidVendor.Lib.SerialRing
import AndroidVendor.Lib.Framing
import AndroidVendor.Mpd.Basic
import AndroidVendor.Mpd.SubWin
import AndroidVendor.Mpd.DataWin
import AndroidVendor.Mpd.Tx
import AndroidVendor.Mpd.Sack
import AndroidVendor.Mpd.Receive
import AndroidVendor.Mpd.RxFrame
import AndroidVendor.Mpd.SubWinInvariant
import AndroidVendor.Mpd.SubWinRun
import AndroidVendor.Mpd.TxInvariant
import AndroidVendor.Mpd.TxSend
import AndroidVendor.Mpd.TxRun
import AndroidVendor.Mpd.TxSide
import AndroidVendor.Mpd.Tape
import AndroidVendor.Mpd.TapeRefinement
import AndroidVendor.Mpd.TapeArrival
import AndroidVendor.Mpd.TapeTimers
import AndroidVendor.Mpd.DataWinRun
import AndroidVendor.Mpd.TapeSession
import AndroidVendor.Mpd.TapeInvariant
import AndroidVendor.Mpd.Delivery
import AndroidVendor.Mpd.InOrder
import AndroidVendor.Mpd.Slots
import AndroidVendor.Mpd.AtMostOnce
import AndroidVendor.Mpd.Ownership
import AndroidVendor.Mpd.SlotLog
import AndroidVendor.Mpd.WholePackets
import AndroidVendor.Mpd.Robust
import AndroidVendor.Mpd.Fragments
import AndroidVendor.Mpd.StateInd
import AndroidVendor.Mpd.Apart
import AndroidVendor.Mpd.StateIndRun
import AndroidVendor.Audio.OutWrite
import AndroidVendor.Audio.OutWriteRun
import AndroidVendor.Lib.ByteBuffer
import AndroidVendor.Zebra.EventLoop
import AndroidVendor.Zebra.EventLoopRun
import AndroidVendor.Webcam.FlySocket
import AndroidVendor.Webcam.FlySocketRun
import AndroidVendor.Lib.Scan
import AndroidVendor.Ratd.AppCommand
import AndroidVendor.Ratd.AppText
import AndroidVendor.Ratd.AppRequest
import AndroidVendor.Ratd.RecordStream
import AndroidVendor.Ratd.SubFlows
import AndroidVendor.Ratd.SubFlowsRun
import AndroidVendor.Lib.Runs
import AndroidVendor.Lib.Shelf
import AndroidVendor.Mpd.Custody
import AndroidVendor.Mpd.SackCustody
import AndroidVendor.Mpd.SendCustody
import AndroidVendor.Mpd.AckExact
import AndroidVendor.Mpd.SackExact
import AndroidVendor.Mpd.SackRun
import AndroidVendor.Mpd.SackEnds
import AndroidVendor.Mpd.SackReport
import AndroidVendor.Mpd.Stores
import AndroidVendor.Mpd.HeadOfLine
import AndroidVendor.Mpd.AckFrame
import AndroidVendor.Mpd.NodeInv
import AndroidVendor.Mpd.Resend
import AndroidVendor.Mpd.ResendTurn
import AndroidVendor.Mpd.ResendRun
import AndroidVendor.Mpd.Suspend
import AndroidVendor.Mpd.SuspendRun
import AndroidVendor.Audio.InRead
import AndroidVendor.Audio.InReadRun
import AndroidVendor.Lib.LinkedRing
import AndroidVendor.Ratd.McwillEvent
import AndroidVendor.Ratd.WatchTable
import AndroidVendor.Ratd.FirePending
import AndroidVendor.Ratd.Dispatcher
import AndroidVendor.Lib.Planes
import AndroidVendor.Webcam.ConvertFrame
import AndroidVendor.Webcam.ConvertFrameRun
import AndroidVendor.Ratd.SessionEcho
import AndroidVendor.Mpd.Outstanding
import AndroidVendor.Mpd.Schd
import AndroidVendor.Mpd.SchdChoice
import AndroidVendor.Mpd.Quota
import AndroidVendor.Lib.RingQueue
import AndroidVendor.Mpd.WaitQueue
import AndroidVendor.Mpd.WaitQueueRun
import AndroidVendor.Mpd.SlotInv
import AndroidVendor.Mpd.EarlyAck
import AndroidVendor.Lib.TimerQueue
import AndroidVendor.Ratd.TimerList
import AndroidVendor.Ratd.Queue
import AndroidVendor.Ratd.QueueWalk
import AndroidVendor.Webcam.CaptureRequest
import AndroidVendor.Webcam.CaptureRequestRun
import AndroidVendor.Mpd.SackRoundTrip
import AndroidVendor.Mpd.SendLog
import AndroidVendor.Mpd.RxLog
import AndroidVendor.Mpd.SendLogRun
import AndroidVendor.Ratd.QueueEntries
import AndroidVendor.Ratd.SendQueues
import AndroidVendor.Ratd.SendQueuesRun
import AndroidVendor.Ratd.FreedOnce
import AndroidVendor.Ratd.Dangling
import AndroidVendor.Lib.Family
import AndroidVendor.Lib.Hold
import AndroidVendor.Mpd.Measures
import AndroidVendor.Mpd.Daemon
import AndroidVendor.Mpd.DaemonRun
import AndroidVendor.Mpd.Delays
import AndroidVendor.Mpd.SchdFrame
import AndroidVendor.Mpd.MeasuresRun
import AndroidVendor.Mpd.ControlHold
import AndroidVendor.Mpd.LinkTurn
