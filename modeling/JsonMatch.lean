import JsonMatch.Match.Matcher
import JsonMatch.Proofs.Containers
import JsonMatch.Proofs.DiscriminatorContracts
import JsonMatch.Proofs.EarlyRuns
import JsonMatch.Proofs.FilledDefaults
import JsonMatch.Proofs.IntegerBounds
import JsonMatch.Proofs.IssuePlaces
import JsonMatch.Proofs.NestingDepth
import JsonMatch.Proofs.Branches
import JsonMatch.Proofs.SharedPlans
import JsonMatch.Proofs.PrefixedItems
import JsonMatch.Proofs.ReportBlocks
import JsonMatch.Proofs.ReportedCandidates
import JsonMatch.Proofs.SchemaContexts
import JsonMatch.Proofs.TableExistence
import JsonMatch.Proofs.UnmatchedInputs
import JsonMatch.Value.Reading
