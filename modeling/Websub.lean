import Websub.Lib.Machine
import Websub.Lib.Clock
import Websub.Lib.LittleEndian
import Websub.Lib.Base64
import Websub.Lib.Uri
import Websub.Lib.Table
import Websub.Lib.Prog
import Websub.Lib.Transducer
import Websub.Lib.OneShot
import Websub.Lib.Stream
import Websub.Lib.Sql
import Websub.Lib.Urlencoded
import Websub.Lib.Records
import Websub.Lib.Ddl
import Websub.CallbackId
import Websub.Callback
import Websub.Db
import Websub.Connection
import Websub.Diesel
import Websub.Hub
import Websub.Service
import Websub.Commit
import Websub.Scheduler
import Websub.Subscriber
import Websub.System
import Websub.Activation
import Websub.Schedule
import Websub.Punctual
import Websub.Renewal
import Websub.Refresh
import Websub.Tick
import Websub.Backend
import Websub.Verification
import Websub.Timer
import Websub.Storm
import Websub.Signature
import Websub.Content
import Websub.Call
import Websub.Creation
import Websub.Backoff
import Websub.Acceptor
import Websub.Incoming
import Websub.Instants
import Websub.Query
import Websub.Request
import Websub.Handshake
import Websub.Handover
import Websub.Sequential
import Websub.Settling
import Websub.Sending
import Websub.Protocol
import Websub.Exchange
import Websub.Server
import Websub.Migration
