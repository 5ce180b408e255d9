import Isdn4bsd.Hdlc.Serial
import Isdn4bsd.Hdlc.Chunks
import Isdn4bsd.L2.Adapter
import Isdn4bsd.L2.NoLoss
import Isdn4bsd.L2.Tei
import Isdn4bsd.L3.Phase
import Isdn4bsd.L3.Channels
import Isdn4bsd.L3.Counts
import Isdn4bsd.L3.Timeouts
import Isdn4bsd.L3.Setup
import Isdn4bsd.L3.Causes
import Isdn4bsd.L4.Interconnect
import Isdn4bsd.L4.Broadcast
import Isdn4bsd.L4.Isolation
import Isdn4bsd.L4.Putqueue
import Isdn4bsd.Lite.GoBackN
import Isdn4bsd.Isdnd.Budget
import Isdn4bsd.Isdnd.Cdids
import Isdn4bsd.Lite.Poll
import Isdn4bsd.L4.Ids
import Isdn4bsd.L3.Codesets
import Isdn4bsd.L3.Messages
import Isdn4bsd.L3.Release
import Isdn4bsd.L4.Shorthold
import Isdn4bsd.Dtmf.Detect
import Isdn4bsd.Isdnd.Valid
import Isdn4bsd.Isdnd.Dialno
import Isdn4bsd.L1.Buffer
import Isdn4bsd.L1.EchoCancel
import Isdn4bsd.Isdnd.Rates
import Isdn4bsd.Isdnd.RatesCover
import Isdn4bsd.Isdnd.RatesFile
import Isdn4bsd.Lib.Tlv
import Isdn4bsd.Lite.Encoder
import Isdn4bsd.L3.Digits
import Isdn4bsd.L4.Information
import Isdn4bsd.Dtmf.Chunks
import Isdn4bsd.Dtmf.Queue
import Isdn4bsd.Dtmf.Progress
import Isdn4bsd.L1.Counter
import Isdn4bsd.L1.HighPass
import Isdn4bsd.L3.Peers
import Isdn4bsd.L2.Speech
import Isdn4bsd.L2.Duplex
import Isdn4bsd.Lib.Transfer
import Isdn4bsd.L1.Filter
import Isdn4bsd.L1.Ipac
import Isdn4bsd.L1.Activation
import Isdn4bsd.L4.DataB3
import Isdn4bsd.Lib.Climb
import Isdn4bsd.Lib.Record
import Isdn4bsd.Isdnd.Rights
import Isdn4bsd.Isdnd.Packets
import Isdn4bsd.Isdnd.Monitor
import Isdn4bsd.Isdnd.Server
