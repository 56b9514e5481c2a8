import FileGate.Assoc
import FileGate.Base64
import FileGate.Body
import FileGate.Bytes
import FileGate.Cipher.Aes
import FileGate.Cipher.Seal
import FileGate.Cipher.Sha256
import FileGate.Client.Basic
import FileGate.Client.Call
import FileGate.Client.Files
import FileGate.Client.Flow
import FileGate.Client.Rehearsal
import FileGate.CommandLine
import FileGate.Config
import FileGate.Credential
import FileGate.Decimal.Binary
import FileGate.Decimal.Numeral
import FileGate.Decimal.Shortest
import FileGate.Failure
import FileGate.Form
import FileGate.Json.Reader
import FileGate.Json.Writer
import FileGate.Main
import FileGate.PathRule
import FileGate.Pattern.Basic
import FileGate.Pattern.Reader
import FileGate.Percent
import FileGate.Proofs.Cipher.Field
import FileGate.Proofs.Cipher.Opening
import FileGate.Proofs.Cipher.Rounds
import FileGate.Proofs.Client.Confinement
import FileGate.Proofs.Client.Delivery
import FileGate.Proofs.Client.Errands
import FileGate.Proofs.Client.FirstDelivery
import FileGate.Proofs.Client.Lockstep
import FileGate.Proofs.Client.Outcome
import FileGate.Proofs.Client.Rename
import FileGate.Proofs.Client.Requests
import FileGate.Proofs.Client.Resend
import FileGate.Proofs.Client.Retry
import FileGate.Proofs.Client.Round
import FileGate.Proofs.Client.SessionFlag
import FileGate.Proofs.Client.Stopping
import FileGate.Proofs.Client.Transparent
import FileGate.Proofs.Pattern.Anchored
import FileGate.Proofs.Server.Admission
import FileGate.Proofs.Server.Arising
import FileGate.Proofs.Server.Arrival
import FileGate.Proofs.Server.CookieText
import FileGate.Proofs.Server.Costs
import FileGate.Proofs.Server.Effect
import FileGate.Proofs.Server.Files
import FileGate.Proofs.Server.FilesRoot
import FileGate.Proofs.Server.Grants
import FileGate.Proofs.Server.Passwords
import FileGate.Proofs.Server.Protection
import FileGate.Proofs.Server.Race
import FileGate.Proofs.Server.Reachable
import FileGate.Proofs.Server.ReadBack
import FileGate.Proofs.Server.Renewals
import FileGate.Proofs.Server.Revoking
import FileGate.Proofs.Server.Routed
import FileGate.Proofs.Server.Routing
import FileGate.Proofs.Server.SafeMethods
import FileGate.Proofs.Server.Shares
import FileGate.Proofs.Server.TokenNames
import FileGate.Proofs.Session.Legible
import FileGate.Proofs.Session.Place
import FileGate.Proofs.Session.Sharing
import FileGate.Proofs.Settings.Tolerance
import FileGate.Proofs.Text.Credentials
import FileGate.Proofs.Text.Decoding
import FileGate.Proofs.Text.Escapes
import FileGate.Proofs.Text.Fields
import FileGate.Proofs.Text.Json
import FileGate.Proofs.Tokens.History
import FileGate.Proofs.Tokens.Revocation
import FileGate.Proofs.Tokens.Sparing
import FileGate.Proofs.Tokens.Ties
import FileGate.Proofs.Tokens.Validity
import FileGate.Proofs.Tokens.Withdrawal
import FileGate.Proofs.Tree.Below
import FileGate.Proofs.Tree.Canonical
import FileGate.Proofs.Tree.Change
import FileGate.Proofs.Tree.Children
import FileGate.Proofs.Tree.Frame
import FileGate.Proofs.Tree.Invariant
import FileGate.Proofs.Tree.Join
import FileGate.Proofs.Tree.Listing
import FileGate.Proofs.Tree.Moving
import FileGate.Proofs.Tree.NormalForm
import FileGate.Proofs.Tree.Removal
import FileGate.Proofs.Tree.Walk
import FileGate.Proofs.Upload.Announced
import FileGate.Proofs.Upload.Medium
import FileGate.Proofs.Upload.Progress
import FileGate.Proofs.Upload.Reading
import FileGate.Proofs.Yaml.Construction
import FileGate.Proofs.Yaml.Reading
import FileGate.Proofs.Yaml.Scanning
import FileGate.Reply
import FileGate.Server.Asked
import FileGate.Server.Basic
import FileGate.Server.Cookie
import FileGate.Server.Files
import FileGate.Server.Handling
import FileGate.Server.MoveAction
import FileGate.Server.Response
import FileGate.Server.Route
import FileGate.Server.Site
import FileGate.Server.TokenStore
import FileGate.Server.Tokens
import FileGate.Session.Basic
import FileGate.Session.Disk
import FileGate.Session.Opening
import FileGate.Session.SealedStore
import FileGate.Settings
import FileGate.Text.Blank
import FileGate.Text.Case
import FileGate.Text.Charset
import FileGate.Text.Digit
import FileGate.Text.Point
import FileGate.Text.Printable
import FileGate.Text.Ranges
import FileGate.Text.Utf8
import FileGate.Text.Word
import FileGate.Tree.FileTree
import FileGate.Tree.Path
import FileGate.Upload
import FileGate.Value
import FileGate.Yaml.Layout
import FileGate.Yaml.Meaning
import FileGate.Yaml.Moment
import FileGate.Yaml.Node
import FileGate.Yaml.Number
import FileGate.Yaml.Scalar
import FileGate.Yaml.Source
import FileGate.Yaml.Tag
import FileGate.Yaml.Token
