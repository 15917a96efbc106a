import AetherHF.Base.Circular
import AetherHF.Base.Directory
import AetherHF.Base.Document
import AetherHF.Base.Exact
import AetherHF.Base.Keyed
import AetherHF.Base.Lists
import AetherHF.Base.Monitor
import AetherHF.Base.Numeral
import AetherHF.Base.Peeling
import AetherHF.Base.QuasiCyclic
import AetherHF.Base.Recent
import AetherHF.Base.SelectiveRepeat
import AetherHF.Base.Stream
import AetherHF.Base.Stride
import AetherHF.Base.Text
import AetherHF.Daemon.AllOrNothing
import AetherHF.Daemon.Capture
import AetherHF.Daemon.Carried
import AetherHF.Daemon.Configuration
import AetherHF.Daemon.Gaps
import AetherHF.Daemon.Gathered
import AetherHF.Daemon.Leaves
import AetherHF.Daemon.Portable
import AetherHF.Daemon.Registry
import AetherHF.Daemon.Rules
import AetherHF.Daemon.Settings
import AetherHF.Daemon.Sorting
import AetherHF.Daemon.Store
import AetherHF.Daemon.Untaken
import AetherHF.Daemon.Valid
import AetherHF.Fec.Codeword
import AetherHF.Fec.Coverage
import AetherHF.Fec.Crc
import AetherHF.Fec.Decoding
import AetherHF.Fec.Erasures
import AetherHF.Fec.Ldpc
import AetherHF.Fec.RateMatch
import AetherHF.Fec.Tables
import AetherHF.Host.Brackets
import AetherHF.Host.Lines
import AetherHF.Host.Payload
import AetherHF.Host.Server
import AetherHF.Host.Vara
import AetherHF.Kiss.Framing
import AetherHF.Link.Assembly
import AetherHF.Link.Callsigns
import AetherHF.Link.Container
import AetherHF.Link.Control
import AetherHF.Link.Datagram
import AetherHF.Link.DatagramAir
import AetherHF.Link.DatagramLength
import AetherHF.Link.Frames
import AetherHF.Link.Front
import AetherHF.Link.Granted.Acknowledged
import AetherHF.Link.Granted.Addressed
import AetherHF.Link.Granted.Answering
import AetherHF.Link.Granted.Call
import AetherHF.Link.Granted.Credit
import AetherHF.Link.Granted.Credits
import AetherHF.Link.Granted.Delivery
import AetherHF.Link.Granted.Ends
import AetherHF.Link.Granted.Faces
import AetherHF.Link.Granted.Inputs
import AetherHF.Link.Granted.Keying
import AetherHF.Link.Granted.Master
import AetherHF.Link.Granted.Receiving
import AetherHF.Link.Granted.Sending
import AetherHF.Link.Granted.Session
import AetherHF.Link.Granted.Slave
import AetherHF.Link.Granted.State
import AetherHF.Link.Granted.StreamHandle
import AetherHF.Link.Granted.StreamMoves
import AetherHF.Link.Granted.Streams
import AetherHF.Link.Granted.TimerRuns
import AetherHF.Link.Granted.TimerSlots
import AetherHF.Link.Granted.Timers
import AetherHF.Link.Granted.Timing
import AetherHF.Link.Granted.Window
import AetherHF.Link.Phy
import AetherHF.Link.Rate
import AetherHF.Link.RateBounds
import AetherHF.Link.RateRuns
import AetherHF.Link.RateTries
import AetherHF.Link.Reassembly
import AetherHF.Phy.Acquisition
import AetherHF.Phy.Blanker
import AetherHF.Phy.Codec
import AetherHF.Phy.Constellation
import AetherHF.Phy.Envelope
import AetherHF.Phy.FrameCodec
import AetherHF.Phy.Interleaver
import AetherHF.Phy.Modes
import AetherHF.Phy.Passband
import AetherHF.Phy.Receiver
import AetherHF.Phy.Rolling
import AetherHF.Phy.RollingRuns
import AetherHF.Phy.RollingStages
import AetherHF.Phy.Streaming
import AetherHF.Phy.ToneBlocks
import AetherHF.Phy.ToneStream
import AetherHF.Radio.Acts
import AetherHF.Radio.Aired
import AetherHF.Radio.Answered
import AetherHF.Radio.Datagrams
import AetherHF.Radio.Desk
import AetherHF.Radio.Keyed
import AetherHF.Radio.Playback
import AetherHF.Radio.Ptt
import AetherHF.Radio.Reported
import AetherHF.Radio.Reserve
import AetherHF.Radio.Runs
import AetherHF.Radio.State
import AetherHF.Radio.Steps
import AetherHF.Radio.Transmit
import AetherHF.Regulatory.Agreement
import AetherHF.Regulatory.Ceiling
import AetherHF.Regulatory.Lawful
import AetherHF.Regulatory.Narrowing
import AetherHF.Regulatory.Policy
import AetherHF.Regulatory.Profile
import AetherHF.Regulatory.SafeDials
import AetherHF.Regulatory.UsFcc
