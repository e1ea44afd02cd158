import Zetta.Lib.Run
import Zetta.Lib.OrdMap
import Zetta.Lib.CountedQueue
import Zetta.Lib.Decimal
import Zetta.Zmux.Catalog
import Zetta.Lib.Base64
import Zetta.Vt100.Eviction
import Zetta.Lib.LogicalLines
import Zetta.Vt100.Reflow
import Zetta.Vt100.ReflowRows
import Zetta.Vt100.ReflowLines
import Zetta.Zosh.Server.Scanners
import Zetta.Zosh.Server.Accounts
import Zetta.Zosh.Server.AckedStates
import Zetta.Zosh.MarkerRoundTrip
import Zetta.Zosh.AgentAccounts
import Zetta.Zosh.AgentDelivery
import Zetta.Zosh.Server.UserInput
import Zetta.Pane.Renumbering
import Zetta.Zclip.Scanner
import Zetta.Zclip.ScannerPaths
import Zetta.Zmux.Delivery
import Zetta.Zmux.Transport
import Zetta.Zmux.Server.PersistenceQueue
import Zetta.Zmux.Server.SecretCheck
import Zetta.Zmux.Server.Pane
import Zetta.Zmux.Server.Sizing
import Zetta.Zmux.Server.Handover
import Zetta.Zmux.Server.Departures
import Zetta.Zmux.Server.OneReader
import Zetta.Zmux.Server.Waiters
import Zetta.Zmux.Server.InReach
import Zetta.Zmux.Server.Revokes
import Zetta.Zmux.Server.Authorize
import Zetta.Zmux.Layout
import Zetta.Zmux.SharedHolds
import Zetta.Console.InputReads
import Zetta.Zmux.SharedState
import Zetta.Zmux.OperationEffects
import Zetta.Zmux.Server.AllOrNothing
import Zetta.Zmux.Server.BatchCommits
import Zetta.Zmux.Server.Catalogue
import Zetta.Zmux.Server.Sealing
import Zetta.Zmux.Server.SharedRevision
import Zetta.Zmux.Persistence.Crash
import Zetta.Zmux.Prelude
import Zetta.Console.History
import Zetta.Console.RectangleRequests
import Zetta.Pane.Reshape
import Zetta.Pane.Geometry
import Zetta.Pane.Focus
import Zetta.Pane.RotationTarget
import Zetta.Ztftp.Transfers
import Zetta.Ztftp.Flights
import Zetta.Ztftp.Negotiation
import Zetta.Ztftp.Retransmission
import Zetta.Zhttp.Server
import Zetta.Collaboration.Orderly
import Zetta.Wslx.Exchange
import Zetta.Zosh.QueryProxy
import Zetta.Zosh.Server.QueryResponder
import Zetta.Zosh.SanitizedRows
import Zetta.Zosh.Server.Titles
import Zetta.Zosh.Server.ScrollbackClears
import Zetta.Zosh.Display
import Zetta.Moshcatty.Deadlines
import Zetta.Lib.RingBits
import Zetta.Moshcatty.ReplayWindow
import Zetta.Zosh.Server.Announcements
