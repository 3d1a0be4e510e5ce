import ServerProbe.Address
import ServerProbe.Address.Literal
import ServerProbe.Address.Name
import ServerProbe.Clock
import ServerProbe.CommandLine
import ServerProbe.Config
import ServerProbe.Config.Json
import ServerProbe.Cursor
import ServerProbe.Decimal.Shortest
import ServerProbe.Engine
import ServerProbe.Engine.Run
import ServerProbe.Exchange
import ServerProbe.Fragment
import ServerProbe.Json
import ServerProbe.Json.Reader
import ServerProbe.Json.Writer
import ServerProbe.Machine
import ServerProbe.Main
import ServerProbe.Octets
import ServerProbe.Outcome
import ServerProbe.Parse
import ServerProbe.Phase
import ServerProbe.Protocol
import ServerProbe.Protocol.A2s
import ServerProbe.Protocol.GameSpy
import ServerProbe.Protocol.GameSpy4
import ServerProbe.Protocol.Quake3
import ServerProbe.QueryError
import ServerProbe.Reader
import ServerProbe.Reading
import ServerProbe.Receipt
import ServerProbe.Report
import ServerProbe.Report.Json
import ServerProbe.Server
import ServerProbe.Session
import ServerProbe.Target
import ServerProbe.TargetSpec
import ServerProbe.Text.Blank
import ServerProbe.Text.Cut
import ServerProbe.Text.Numeral
import ServerProbe.Text.Quoted
import ServerProbe.Text.Unprintable
import ServerProbe.Text.Utf8
import ServerProbe.Total
import ServerProbe.Proofs.Fragment
import ServerProbe.Proofs.Reading
import ServerProbe.Proofs.Replies
import ServerProbe.Proofs.Protocol
import ServerProbe.Proofs.Parse
import ServerProbe.Proofs.ReplyFaults
import ServerProbe.Proofs.Exchange
import ServerProbe.Proofs.Reaction
import ServerProbe.Proofs.Enactment
import ServerProbe.Proofs.Register
import ServerProbe.Proofs.Journal
import ServerProbe.Proofs.Life
import ServerProbe.Proofs.Total
import ServerProbe.Proofs.Machine
import ServerProbe.Proofs.Spending
import ServerProbe.Proofs.Order
import ServerProbe.Proofs.Sequencing
import ServerProbe.Proofs.Isolation
import ServerProbe.Proofs.Splitting
import ServerProbe.Proofs.Waiting
import ServerProbe.Proofs.Ticking
import ServerProbe.Proofs.Exhaustion
import ServerProbe.Proofs.Reporting
import ServerProbe.Proofs.Draining
import ServerProbe.Proofs.Reassembly
import ServerProbe.Proofs.Interleaving
import ServerProbe.Proofs.Learning
import ServerProbe.Proofs.Numbering
import ServerProbe.Proofs.PayloadMeaning
import ServerProbe.Proofs.Sealing
import ServerProbe.Proofs.RepeatedFacts
import ServerProbe.Proofs.Repeating
import ServerProbe.Proofs.Responding
import ServerProbe.Proofs.Ending
import ServerProbe.Proofs.Broadcasting
import ServerProbe.Proofs.Flagging
import ServerProbe.Proofs.UnheardServer
import ServerProbe.Proofs.Concluding
import ServerProbe.Proofs.Indexing
import ServerProbe.Proofs.Requesting
import ServerProbe.Proofs.Discovering
import ServerProbe.Proofs.Refusing
import ServerProbe.Proofs.SealedFacts
import ServerProbe.Proofs.Utf8
import ServerProbe.Proofs.Extent
import ServerProbe.Proofs.Layout
import ServerProbe.Proofs.Text
import ServerProbe.Proofs.Content
import ServerProbe.Proofs.Decoding
import ServerProbe.Proofs.Strictness
import ServerProbe.Proofs.Truncation
import ServerProbe.Proofs.StatusText
import ServerProbe.Proofs.FullStatus
import ServerProbe.Proofs.Pairing
import ServerProbe.Proofs.Silence
import ServerProbe.Proofs.Driving
import ServerProbe.Proofs.Gating
import ServerProbe.Proofs.Averaging
import ServerProbe.Proofs.Coherence
import ServerProbe.Proofs.Retaining
import ServerProbe.Proofs.Roster
import ServerProbe.Proofs.Duplicates
import ServerProbe.Proofs.Verbosity
import ServerProbe.Proofs.Diagnosing
import ServerProbe.Proofs.Naming
import ServerProbe.Proofs.Reader
import ServerProbe.Proofs.Cursor
import ServerProbe.Proofs.Slicing
import ServerProbe.Proofs.Bounding
