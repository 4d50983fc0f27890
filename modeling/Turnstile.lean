import Turnstile.Main
import Turnstile.Rehearsal.World
import Turnstile.Proofs.Run.Budget
import Turnstile.Proofs.Run.Static
import Turnstile.Proofs.Run.Timeline
import Turnstile.Proofs.Schema.Residue
import Turnstile.Proofs.Tool.Catalogue
import Turnstile.Proofs.Tool.Envelope
import Turnstile.Proofs.Bridge.Correlation
import Turnstile.Proofs.Bridge.Traffic
import Turnstile.Proofs.Json.Order
import Turnstile.Proofs.Json.Record
import Turnstile.Proofs.Machine.Document
import Turnstile.Proofs.Machine.Fault
import Turnstile.Proofs.Run.Document
import Turnstile.Proofs.Bridge.Reader
import Turnstile.Proofs.Bridge.Ceasing
import Turnstile.Proofs.Bridge.Liaison
import Turnstile.Proofs.Bridge.Closing
import Turnstile.Proofs.Bridge.Aftermath
import Turnstile.Proofs.Bridge.Finality
import Turnstile.Proofs.Bridge.Refusal
import Turnstile.Proofs.Run.Contiguity
import Turnstile.Proofs.Hat.Provision
import Turnstile.Proofs.Run.Lifecycle
import Turnstile.Proofs.Run.Threading
import Turnstile.Proofs.Schema.Source
import Turnstile.Proofs.Schema.Spelling
import Turnstile.Proofs.Schema.Listed
import Turnstile.Proofs.Schema.Cycle
import Turnstile.Proofs.Schema.Lookup
import Turnstile.Proofs.Tool.Reading
import Turnstile.Proofs.Bridge.Prompt
import Turnstile.Proofs.Hat.Echo
import Turnstile.Proofs.Hat.Session
import Turnstile.Proofs.Run.Barred
import Turnstile.Proofs.Bridge.Transcript
import Turnstile.Proofs.Bridge.Listing
import Turnstile.Proofs.Bridge.Speech
import Turnstile.Proofs.Bridge.Batch
import Turnstile.Proofs.Bridge.Handshake
import Turnstile.Proofs.Bridge.Launch
import Turnstile.Proofs.Number.Numeral
import Turnstile.Proofs.Json.Printing
import Turnstile.Proofs.Rpc.Message
