import ActionCatalog.ActionDetail
import ActionCatalog.ActionRecord.Basic
import ActionCatalog.ActionRecord.Encoding
import ActionCatalog.Basic
import ActionCatalog.Binary64.Arithmetic
import ActionCatalog.Binary64.Basic
import ActionCatalog.Binary64.Rounding
import ActionCatalog.Binary64.Shortest
import ActionCatalog.Binary64.Spelling
import ActionCatalog.Catalog.Artifact
import ActionCatalog.Catalog.Build
import ActionCatalog.Catalog.Snapshot
import ActionCatalog.CommandLine.Grammar
import ActionCatalog.CommandLine.Invocation
import ActionCatalog.CommandLine.Reading
import ActionCatalog.CommandLine.Response
import ActionCatalog.CommandLine.Run
import ActionCatalog.CommandLine.Shell
import ActionCatalog.Corpus.Scan
import ActionCatalog.Decimal
import ActionCatalog.FileTree.Basic
import ActionCatalog.FileTree.Edit
import ActionCatalog.Hash.SipHash
import ActionCatalog.Json.Mismatch
import ActionCatalog.Json.NumberScanner
import ActionCatalog.Json.Reader
import ActionCatalog.Json.Skipping
import ActionCatalog.Json.Source
import ActionCatalog.Json.StringScanner
import ActionCatalog.Json.Structured
import ActionCatalog.Json.Value
import ActionCatalog.Json.Writer
import ActionCatalog.Main
import ActionCatalog.Proofs.ActionDetail.Neighbors
import ActionCatalog.Proofs.ActionRecord.Fields
import ActionCatalog.Proofs.ActionRecord.Order
import ActionCatalog.Proofs.ActionRecord.RoundTrip
import ActionCatalog.Proofs.Binary64.Nearest
import ActionCatalog.Proofs.Binary64.PlainText
import ActionCatalog.Proofs.Binary64.Range
import ActionCatalog.Proofs.Binary64.ReadBack
import ActionCatalog.Proofs.Binary64.Truncation
import ActionCatalog.Proofs.Catalog.ArtifactRoundTrip
import ActionCatalog.Proofs.Catalog.Attainable
import ActionCatalog.Proofs.Catalog.Exactness
import ActionCatalog.Proofs.Catalog.Reload
import ActionCatalog.Proofs.Catalog.Reuse
import ActionCatalog.Proofs.Catalog.Validity
import ActionCatalog.Proofs.Corpus.Apart
import ActionCatalog.Proofs.Corpus.LinkFree
import ActionCatalog.Proofs.Corpus.Listing
import ActionCatalog.Proofs.Corpus.Reach
import ActionCatalog.Proofs.Decimal.Grammar
import ActionCatalog.Proofs.FileTree.Changes
import ActionCatalog.Proofs.FileTree.Names
import ActionCatalog.Proofs.FileTree.Order
import ActionCatalog.Proofs.FileTree.Removal
import ActionCatalog.Proofs.FileTree.Replacement
import ActionCatalog.Proofs.Json.Nesting
import ActionCatalog.Proofs.Json.Numbers
import ActionCatalog.Proofs.Json.Readers
import ActionCatalog.Proofs.Json.Strings
import ActionCatalog.Proofs.Json.Values
import ActionCatalog.Proofs.Keyed
import ActionCatalog.Proofs.Query.Acceptance
import ActionCatalog.Proofs.Query.CanonicalText
import ActionCatalog.Proofs.Query.Comparison
import ActionCatalog.Proofs.Query.Composition
import ActionCatalog.Proofs.Query.Faults
import ActionCatalog.Proofs.Query.Grammar
import ActionCatalog.Proofs.Query.Names
import ActionCatalog.Proofs.Query.Progress
import ActionCatalog.Proofs.Query.Substrings
import ActionCatalog.Proofs.Query.Tokens
import ActionCatalog.Proofs.ResultCache.Entries
import ActionCatalog.Proofs.ResultCache.Recency
import ActionCatalog.Proofs.Session.CacheTransparency
import ActionCatalog.Proofs.Session.Details
import ActionCatalog.Proofs.Session.FailedBuilds
import ActionCatalog.Proofs.Session.IncrementalBuild
import ActionCatalog.Proofs.Session.Interleaving
import ActionCatalog.Proofs.Session.Notifications
import ActionCatalog.Proofs.Session.OwnArtifacts
import ActionCatalog.Proofs.Session.Restarts
import ActionCatalog.Proofs.Session.Reuse
import ActionCatalog.Proofs.Session.Trees
import ActionCatalog.Proofs.Session.Validity
import ActionCatalog.Proofs.SkillDocument.Conservation
import ActionCatalog.Proofs.SkillDocument.Contents
import ActionCatalog.Proofs.SkillDocument.Flatten
import ActionCatalog.Proofs.SkillDocument.IntegerMembers
import ActionCatalog.Proofs.SkillDocument.Spelling
import ActionCatalog.Proofs.SkillDocument.Summary
import ActionCatalog.Proofs.SkillDocument.TypeTags
import ActionCatalog.Proofs.Statistics
import ActionCatalog.Proofs.Statistics.Summaries
import ActionCatalog.Proofs.Text.Trimming
import ActionCatalog.Proofs.UnixPath
import ActionCatalog.Proofs.UnixPath.RelativeNames
import ActionCatalog.Query.Basic
import ActionCatalog.Query.Evaluation
import ActionCatalog.Query.Reader
import ActionCatalog.Report.Encoding
import ActionCatalog.Report.Results
import ActionCatalog.Report.Styled
import ActionCatalog.ResultCache
import ActionCatalog.Session.Basic
import ActionCatalog.Session.Event
import ActionCatalog.Settings
import ActionCatalog.SkillDocument.Flatten
import ActionCatalog.Statistics
import ActionCatalog.Text.Alphanumeric
import ActionCatalog.Text.Cased
import ActionCatalog.Text.ControlSequence
import ActionCatalog.Text.LowerCase
import ActionCatalog.Text.Quoted
import ActionCatalog.UnixPath
