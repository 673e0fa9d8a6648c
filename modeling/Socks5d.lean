import Socks5d.Accounting
import Socks5d.Admin.Client
import Socks5d.Admin.Commands
import Socks5d.Admin.Lines
import Socks5d.Admin.Release
import Socks5d.Admin.Residue
import Socks5d.Admin.Search
import Socks5d.Admin.Settings
import Socks5d.Answering
import Socks5d.Authorization
import Socks5d.Bookkeeping
import Socks5d.Destination
import Socks5d.Diagnosis
import Socks5d.Dialogue
import Socks5d.Intake
import Socks5d.Judgement
import Socks5d.Layout
import Socks5d.Listeners
import Socks5d.Loop
import Socks5d.Notifications
import Socks5d.Occupancy
import Socks5d.Outcomes
import Socks5d.Parser.Accepted
import Socks5d.Parser.Tables
import Socks5d.RawBuffer
import Socks5d.Refusals
import Socks5d.Reuse
import Socks5d.Segments
import Socks5d.Selection
import Socks5d.Shutdown
import Socks5d.Traffic
import Socks5d.Truncation
import Socks5d.Users
