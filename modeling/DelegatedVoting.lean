import DelegatedVoting.Bytes.Lemmas
import DelegatedVoting.Json.Records
import DelegatedVoting.Main
import DelegatedVoting.Packed.Records
import DelegatedVoting.Proofs.Keys
import DelegatedVoting.Proofs.Packed
import DelegatedVoting.Proofs.Resolution
import DelegatedVoting.Proofs.Durability
import DelegatedVoting.Proofs.Counting
import DelegatedVoting.Store.Memory
import DelegatedVoting.Proofs.Tables
import DelegatedVoting.Proofs.Validation
import DelegatedVoting.Proofs.Admission
import DelegatedVoting.Proofs.Listing
import DelegatedVoting.Proofs.Atomicity
import DelegatedVoting.Proofs.Exhaustion
import DelegatedVoting.Proofs.PrefixCode
import DelegatedVoting.Proofs.Answers
import DelegatedVoting.Proofs.Deeds
import DelegatedVoting.Proofs.Isolation
import DelegatedVoting.Proofs.Journal
import DelegatedVoting.Proofs.Arrivals
import DelegatedVoting.Proofs.Cursors
import DelegatedVoting.Proofs.Paging
import DelegatedVoting.Proofs.Documents
import DelegatedVoting.Proofs.Members
import DelegatedVoting.Proofs.Requests
import DelegatedVoting.Proofs.Front
import DelegatedVoting.Proofs.OpenCount
import DelegatedVoting.Proofs.Files
import DelegatedVoting.Proofs.Lives
import DelegatedVoting.Proofs.Accounts
import DelegatedVoting.Proofs.Influence
import DelegatedVoting.Proofs.Symmetry
import DelegatedVoting.Proofs.Census
import DelegatedVoting.Proofs.Refusals
import DelegatedVoting.Proofs.Inspection
import DelegatedVoting.Proofs.Spellings
import DelegatedVoting.Proofs.TomlTexts
import DelegatedVoting.Proofs.TomlLines
import DelegatedVoting.Proofs.TomlNumbers
import DelegatedVoting.Proofs.Settings
import DelegatedVoting.Proofs.Triggers
import DelegatedVoting.Proofs.Walks
import DelegatedVoting.Proofs.Records
