import PropSchema.Accessor
import PropSchema.Disk.Tree
import PropSchema.Main
import PropSchema.Proofs.AccessModes
import PropSchema.Proofs.Artifact.Agreement
import PropSchema.Proofs.Artifact.DigestInput
import PropSchema.Proofs.Artifact.Disclosure
import PropSchema.Proofs.Artifact.Guards
import PropSchema.Proofs.Artifact.Names
import PropSchema.Proofs.Artifact.PublicHeaders
import PropSchema.Proofs.Artifact.Templates
import PropSchema.Proofs.Command.Delivery
import PropSchema.Proofs.Command.Footprint
import PropSchema.Proofs.Command.Generate
import PropSchema.Proofs.Command.Verdict
import PropSchema.Proofs.Disk.Completion
import PropSchema.Proofs.Disk.Places
import PropSchema.Proofs.Disk.Rollback
import PropSchema.Proofs.Normalization
import PropSchema.Proofs.Number.DoubleTexts
import PropSchema.Proofs.Number.Texts
import PropSchema.Proofs.Rewriting
import PropSchema.Proofs.Schema.ErrorPlaces
import PropSchema.Proofs.Schema.Grammar
import PropSchema.Proofs.Schema.Interchange
import PropSchema.Proofs.Schema.KeyRules
import PropSchema.Proofs.Schema.Loading
import PropSchema.Proofs.Schema.Lookup
import PropSchema.Proofs.Schema.Ownership
import PropSchema.Proofs.Schema.Rules
import PropSchema.Proofs.Session
import PropSchema.Proofs.Store.History
import PropSchema.Proofs.Token.Lexemes
import PropSchema.Proofs.Value.Canonical
import PropSchema.Proofs.Value.DoubleGrammar
import PropSchema.Proofs.Value.Doubles
import PropSchema.Proofs.Value.Exactness
import PropSchema.Proofs.Value.Fitting
import PropSchema.Proofs.Value.Integers
import PropSchema.Proofs.Value.Lists
import PropSchema.Proofs.Value.Misuse
import PropSchema.Proofs.Value.RoundTrip
