import NookOs.Lib.Run
import NookOs.Lib.Fallible
import NookOs.Lib.Table
import NookOs.Lib.InFlight
import NookOs.Lib.SortedSet
import NookOs.Lib.Cells
import NookOs.Lib.AtLeastOnce
import NookOs.Lib.Reach
import NookOs.Lib.Broadcast
import NookOs.Lib.Text
import NookOs.Lib.Program
import NookOs.Lib.Forest
import NookOs.Lib.Http
import NookOs.Lib.Walk
import NookOs.Lib.Kleene
import NookOs.Lib.Paging
import NookOs.Lib.Digits
import NookOs.Lib.Calendar
import NookOs.Db.Restamp
import NookOs.Db.Dialect
import NookOs.Db.Paging
import NookOs.Db.Lists
import NookOs.Queue.Work
import NookOs.Queue.Database
import NookOs.Queue.Redis
import NookOs.Queue.Sqs
import NookOs.Jobs.LoopJob
import NookOs.Jobs.Lifecycle
import NookOs.Jobs.Endings
import NookOs.Jobs.Pause
import NookOs.Jobs.Ledger
import NookOs.Jobs.Rejection
import NookOs.Jobs.Ruling
import NookOs.Jobs.RunHeads
import NookOs.Jobs.WorkSource
import NookOs.Jobs.PullUrl
import NookOs.Jobs.History
import NookOs.Jobs.Ceiling
import NookOs.Jobs.Hygiene
import NookOs.Jobs.RepairLane
import NookOs.Jobs.Wakeup
import NookOs.Jobs.Remotes
import NookOs.Jobs.Rewrites
import NookOs.Placement.Capacity
import NookOs.Placement.PortLeases
import NookOs.Placement.BuildPorts
import NookOs.Placement.JobDispatch
import NookOs.Placement.Allocation
import NookOs.Agent.Cordon
import NookOs.Placement.Gates
import NookOs.Placement.Selection
import NookOs.Tasks.Task
import NookOs.Tasks.Relations
import NookOs.Tasks.Leases
import NookOs.Tasks.Pick
import NookOs.Tasks.Claims
import NookOs.Tasks.BuildLadder
import NookOs.Tasks.LadderHistory
import NookOs.Tasks.MergeReconcile
import NookOs.Tasks.BoardCalls
import NookOs.Tasks.BoardChecks
import NookOs.Tasks.BoardIntegrity
import NookOs.Tasks.PickWalk
import NookOs.Agent.Update
import NookOs.Agent.Transcript
import NookOs.Nodes.Records
import NookOs.Nodes.Enrolment
import NookOs.Nodes.Rotation
import NookOs.Nodes.Revocation
import NookOs.Ws.TunnelRoutes
import NookOs.Ws.Wire
import NookOs.Ws.Requests
import NookOs.Ws.TunnelBody
import NookOs.Ws.TunnelHeaders
import NookOs.Ws.Watched
import NookOs.Ws.Sessions
import NookOs.Ws.NodeLinks
import NookOs.Ws.TunnelTarget
import NookOs.Ws.Viewers
import NookOs.Forge.Reads
import NookOs.Forge.Demand
import NookOs.Forge.MergeQueue
import NookOs.Forge.JudgedHead
import NookOs.Forge.Verdict
import NookOs.Notebook.Rows
import NookOs.Notebook.Calls
import NookOs.Notebook.Integrity
import NookOs.Notebook.Deletion
import NookOs.Chat.Messages
import NookOs.Chat.Deletion
import NookOs.Notify.Addresses
import NookOs.Notify.Delivery
import NookOs.Identity.Rows
import NookOs.Identity.Calls
import NookOs.Identity.Owners
import NookOs.Identity.Pairing
import NookOs.Identity.Membership
import NookOs.Ws.SafeNext
import NookOs.Secrets.Dotenv
import NookOs.Ws.HostCookie
import NookOs.Lib.Dealing
import NookOs.Lib.Tally
import NookOs.Sessions.Planner
import NookOs.Sessions.Placing
import NookOs.Sessions.Exactness
import NookOs.Sessions.Cloning
import NookOs.Db.SqliteTime
import NookOs.Db.TimeMath
import NookOs.Tasks.DescriptionRevisions
import NookOs.Lib.Markdown
import NookOs.Mail.QuotedCard
import NookOs.Mail.AuthenticationResults
import NookOs.Lib.Utf8
import NookOs.Mail.Imap
import NookOs.Mail.ImapReplies
import NookOs.Lib.Talk
import NookOs.Mail.Smtp
import NookOs.Mail.SmtpRelay
import NookOs.Mail.ImapCommands
