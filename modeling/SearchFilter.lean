import SearchFilter.Main
import SearchFilter.Operation.Script
import SearchFilter.Operation.Listing
import SearchFilter.Tree.Encode
import SearchFilter.Tree.Equality
import SearchFilter.Proofs.Operation.Permutation
import SearchFilter.Proofs.Query.Spelling
import SearchFilter.Proofs.Reading.Query
import SearchFilter.Proofs.Tree.Chain
import SearchFilter.Proofs.Query.Distinction
import SearchFilter.Proofs.Tree.Reach
import SearchFilter.Proofs.Query.Failure
import SearchFilter.Proofs.Query.Negation
import SearchFilter.Proofs.Query.Skipping
import SearchFilter.Proofs.Query.Balance
import SearchFilter.Proofs.Text.Character
import SearchFilter.Proofs.Decimal.Notation
import SearchFilter.Proofs.Decimal.Value
import SearchFilter.Proofs.Tree.Embedded
import SearchFilter.Proofs.Query.Checking
import SearchFilter.Proofs.Clause.Bounds
import SearchFilter.Proofs.Clause.Literals
import SearchFilter.Proofs.CommandLine.Stages
import SearchFilter.Proofs.Reading.Presence
import SearchFilter.Proofs.Operation.Collision
import SearchFilter.Proofs.Tree.Repetition
import SearchFilter.Proofs.Clause.Filling
import SearchFilter.Proofs.Field.Namespaces
import SearchFilter.Proofs.Json.Source
import SearchFilter.Proofs.Tree.MemberOrder
