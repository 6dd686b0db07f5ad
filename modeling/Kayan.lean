import Kayan.Number
import Kayan.Lib.Prog
import Kayan.Lib.RowTable
import Kayan.Shop.Stock
import Kayan.Shop.Cart
import Kayan.Auth.Schema
import Kayan.Auth.Sql
import Kayan.Auth.Service
import Kayan.Auth.Frame
import Kayan.Auth.Invariant
import Kayan.Auth.Checks
import Kayan.Auth.Calls
import Kayan.Auth.Otp
import Kayan.Auth.Registration
import Kayan.Fk.Expansion
import Kayan.Fk.Lookup
import Kayan.Fk.Reading
import Kayan.Fk.Serialise
import Kayan.Reads.Schema
import Kayan.Reads.Service
import Kayan.Reads.Timestamps
import Kayan.Lib.Results
import Kayan.Reads.References
import Kayan.Reads.Isolation
import Kayan.Items.Schema
import Kayan.Items.Sql
import Kayan.Lib.Ledger
import Kayan.Lib.Protocol
import Kayan.Items.Refinement
import Kayan.Items.Protocol
import Kayan.Items.Races
import Kayan.Items.Cancelled
import Kayan.Items.History
import Kayan.Lib.Versions
import Kayan.Sessions.Service
import Kayan.Lib.Monitor
import Kayan.Sessions.Seen
import Kayan.Sessions.Calls
import Kayan.Sessions.Users
import Kayan.Sessions.Tokens
import Kayan.Lib.Netstrings
import Kayan.Sessions.Admins
import Kayan.Sessions.Signing
import Kayan.Sessions.Jtis
import Kayan.Sessions.Refreshing
import Kayan.Sessions.Suspended
import Kayan.Sessions.Gateway
import Kayan.Sessions.Resets
import Kayan.Chat.Sql
import Kayan.Chat.Service
import Kayan.Chat.Seen
import Kayan.Chat.Calls
import Kayan.Chat.Frame
import Kayan.Chat.Rooms
import Kayan.Chat.Registry
import Kayan.Chat.LastMessage
import Kayan.Chat.Pairs
import Kayan.Chat.Followup
import Kayan.Sessions.LastAdmin
import Kayan.Lib.SoleClient
import Kayan.Shop.Alone
import Kayan.Shop.Orders
import Kayan.Lib.WaitFor
import Kayan.Shop.Locking
import Kayan.Shop.Deadlock
import Kayan.Shop.Checkout
import Kayan.Carts.Service
import Kayan.Carts.Quantities
import Kayan.Lib.Ddl
import Kayan.Lib.Migration
import Kayan.Migrations.Names
import Kayan.Migrations.Files
import Kayan.Migrations.Resume
import Kayan.Lib.Entries
import Kayan.Trees
import Kayan.Http.Envelope
import Kayan.Http.Logging
import Kayan.Fk.Fields
import Kayan.Fk.Keeping
import Kayan.Fk.Coverage
import Kayan.Jsonb
import Kayan.Fk.Opaque
import Kayan.Products.Schema
import Kayan.Products.Service
import Kayan.Products.Details
import Kayan.Auth.Resend
import Kayan.Lib.Like
import Kayan.Lib.Paging
import Kayan.Listing.Schema
import Kayan.Listing.Pages
import Kayan.Lib.Cursor
import Kayan.Listing.Messages
import Kayan.Requests.Service
import Kayan.Requests.Pages
import Kayan.Lib.Statement
import Kayan.Products.Listing
import Kayan.Products.Requested
import Kayan.Chat.Unread
import Kayan.Chat.Joined
import Kayan.Chat.Owners
import Kayan.Lib.RowVersions
import Kayan.Items.Alone
import Kayan.Items.Images
import Kayan.Media.Schema
import Kayan.Media.Sql
import Kayan.Media.Service
import Kayan.Media.Frame
import Kayan.Lib.Confined
import Kayan.Media.Attached
import Kayan.Media.Pictures
import Kayan.Media.Alone
import Kayan.Media.Assets
import Kayan.Media.Reporters
import Kayan.Lib.Sequential
import Kayan.Ratings.Schema
import Kayan.Ratings.Service
import Kayan.Items.Settled
import Kayan.Ratings.Faults
import Kayan.Ratings.Body
import Kayan.Ratings.RoundTrip
import Kayan.Items.Setting
import Kayan.Ratings.Purchases
import Kayan.Sessions.Logout
import Kayan.Listing.Escaping
import Kayan.Followups.Steps
import Kayan.Chat.Connecting
import Kayan.Lib.TwoRuns
import Kayan.Auth.Neutral
import Kayan.Auth.Spellings
import Kayan.Auth.Expired
import Kayan.Sessions.Expired
import Kayan.Auth.Requesting
import Kayan.Sessions.Seeder
import Kayan.Media.Profiles
import Kayan.Sessions.Lifetimes
import Kayan.Http.Graphs
import Kayan.Lib.Doubles
import Kayan.Lib.Grouping
import Kayan.Reads.Attaching
import Kayan.Lib.Placeholders
import Kayan.Reads.Searching
import Kayan.Chat.Transcripts
import Kayan.Chat.FollowupLog
import Kayan.Lib.Erasure
import Kayan.Sessions.Deleted
import Kayan.Sessions.Hybrid
import Kayan.Shop.Receipts
import Kayan.Lib.Sections
import Kayan.Media.Drafts
import Kayan.Media.Replaced
import Kayan.Sessions.Authority
import Kayan.Sessions.Passwords
import Kayan.Sessions.PasswordChanges
