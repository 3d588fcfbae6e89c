import ContextualQuery.Main
import ContextualQuery.Proofs.Acceptance
import ContextualQuery.Proofs.Arena
import ContextualQuery.Proofs.CaseVariants
import ContextualQuery.Proofs.Compilability
import ContextualQuery.Proofs.Composition
import ContextualQuery.Proofs.Consumption
import ContextualQuery.Proofs.Depth
import ContextualQuery.Proofs.Duplicates
import ContextualQuery.Proofs.Escapes
import ContextualQuery.Proofs.Identifiers
import ContextualQuery.Proofs.JsonView
import ContextualQuery.Proofs.Operators
import ContextualQuery.Proofs.Partition
import ContextualQuery.Proofs.PrefixHistory
import ContextualQuery.Proofs.Readability
import ContextualQuery.Proofs.Reading.Alphabet
import ContextualQuery.Proofs.Rereading
import ContextualQuery.Proofs.Responses
import ContextualQuery.Proofs.ResultSets
import ContextualQuery.Proofs.Scoping
import ContextualQuery.Proofs.Search.Grouping
import ContextualQuery.Proofs.SearchWords
import ContextualQuery.Proofs.ServerChoice
import ContextualQuery.Proofs.Sessions
import ContextualQuery.Proofs.SettingsOrder
import ContextualQuery.Proofs.SettingsRoundTrip
import ContextualQuery.Proofs.SortKeys
import ContextualQuery.Proofs.Spacing
import ContextualQuery.Proofs.Strictness
import ContextualQuery.Proofs.WellFormed
import ContextualQuery.Proofs.XmlCharacters
