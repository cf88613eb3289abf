import Neo3App.Apdu.Command
import Neo3App.Apdu.Dispatcher
import Neo3App.Apdu.Request
import Neo3App.Common.Base58
import Neo3App.Common.Base58Decode
import Neo3App.Common.Base58RoundTrip
import Neo3App.Common.Bip44
import Neo3App.Common.Bip44Limits
import Neo3App.Common.Buffer
import Neo3App.Common.BufferCalls
import Neo3App.Common.Checked
import Neo3App.Common.Format
import Neo3App.Common.FormatBounds
import Neo3App.Common.FormatHex
import Neo3App.Common.FormatSigned
import Neo3App.Common.Paired
import Neo3App.Common.Read
import Neo3App.Common.Scan
import Neo3App.Common.Seek
import Neo3App.Common.Truncation
import Neo3App.Common.Varint
import Neo3App.Common.Write
import Neo3App.Crypto
import Neo3App.Device
import Neo3App.Globals
import Neo3App.Handler.GetPublicKey
import Neo3App.Handler.SignTx
import Neo3App.Host.Client
import Neo3App.Host.CommandBuilder
import Neo3App.Host.PathText
import Neo3App.Io
import Neo3App.Lib.Blocks
import Neo3App.Lib.Bytes
import Neo3App.Lib.Collision
import Neo3App.Lib.Commuting
import Neo3App.Lib.Compression
import Neo3App.Lib.Cursor
import Neo3App.Lib.Decimal
import Neo3App.Lib.EarlyExit
import Neo3App.Lib.Guarded
import Neo3App.Lib.Labelled
import Neo3App.Lib.Lockstep
import Neo3App.Lib.Numeral
import Neo3App.Lib.Paired
import Neo3App.Lib.Slots
import Neo3App.Lib.Store
import Neo3App.Lib.Tape
import Neo3App.Lib.Transition
import Neo3App.Sdk
import Neo3App.Session.AddressApproval
import Neo3App.Session.AddressReview
import Neo3App.Session.Answerable
import Neo3App.Session.Browsing
import Neo3App.Session.Channel
import Neo3App.Session.ClientSigning
import Neo3App.Session.Commitment
import Neo3App.Session.Confidentiality
import Neo3App.Session.Documented
import Neo3App.Session.Earned
import Neo3App.Session.Exchange
import Neo3App.Session.Handshake
import Neo3App.Session.HostChunks
import Neo3App.Session.KeyPaths
import Neo3App.Session.NoBlindSigning
import Neo3App.Session.OrderReview
import Neo3App.Session.PathTexts
import Neo3App.Session.Reassembly
import Neo3App.Session.Received
import Neo3App.Session.Refusals
import Neo3App.Session.Responses
import Neo3App.Session.Restart
import Neo3App.Session.ReviewIndices
import Neo3App.Session.Reviews
import Neo3App.Session.Signing
import Neo3App.Session.Step
import Neo3App.Session.Verification
import Neo3App.Session.Wire
import Neo3App.Transaction.Accepted
import Neo3App.Transaction.Attempts
import Neo3App.Transaction.Bounds
import Neo3App.Transaction.Canonical
import Neo3App.Transaction.Checked
import Neo3App.Transaction.Contents
import Neo3App.Transaction.Deserialize
import Neo3App.Transaction.Layout
import Neo3App.Transaction.Locality
import Neo3App.Transaction.Orders
import Neo3App.Transaction.Parse
import Neo3App.Transaction.Retries
import Neo3App.Transaction.Slices
import Neo3App.Transaction.Template
import Neo3App.Transaction.Transfer
import Neo3App.Transaction.Truncated
import Neo3App.Transaction.TxUtils
import Neo3App.Transaction.Types
import Neo3App.Transaction.Verdicts
import Neo3App.Transaction.Written
import Neo3App.Ui.Action
import Neo3App.Ui.AddressFormat
import Neo3App.Ui.Addresses
import Neo3App.Ui.Display
import Neo3App.Ui.FeeScreens
import Neo3App.Ui.LinearReview
import Neo3App.Ui.Navigation
import Neo3App.Ui.PrintedScreens
import Neo3App.Ui.Review
import Neo3App.Ui.ReviewCursor
import Neo3App.Ui.ReviewNavigation
import Neo3App.Ui.ReviewScreens
import Neo3App.Ui.ReviewWalk
import Neo3App.Ui.SignerScreens
import Neo3App.Ui.SignerWalk
import Neo3App.Ui.SignersDetermined
import Neo3App.Ui.SignersShown
import Neo3App.Ui.State
import Neo3App.Ui.StaticScreens
import Neo3App.Ui.TokenAmount
import Neo3App.Ui.Transcript
import Neo3App.Ui.Utils
