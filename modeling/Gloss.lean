import Gloss.Main
import Gloss.Proofs.Table
import Gloss.Proofs.Fixture.Cutting
import Gloss.Proofs.Fixture.Entering
import Gloss.Proofs.Fixture.Positions
import Gloss.Proofs.Fixture.Annotation
import Gloss.Proofs.Grammar.Readings
import Gloss.Proofs.Grammar.Tokens
import Gloss.Proofs.Grammar.Extents
import Gloss.Proofs.Tree.Placement
import Gloss.Proofs.Grammar.Placement
import Gloss.Proofs.Grammar.Placement.Files
import Gloss.Proofs.Tree.Innermost
import Gloss.Proofs.Tree.Refs
import Gloss.Proofs.Resolution.Entries
import Gloss.Proofs.Resolution.Grounds
import Gloss.Proofs.Resolution.Scopes
import Gloss.Proofs.Resolution.Steps
import Gloss.Proofs.Resolution.Calls
import Gloss.Proofs.Resolution.Inference
import Gloss.Proofs.Resolution.Progress
import Gloss.Proofs.Resolution.Runs
import Gloss.Proofs.Resolution.Declaring
import Gloss.Proofs.Resolution.Checking
import Gloss.Proofs.Tree.Files
import Gloss.Proofs.Resolution.Outcomes
import Gloss.Proofs.Typing.Overloads
import Gloss.Proofs.SelfAnnotation.Insertions
import Gloss.Proofs.Verification
import Gloss.Proofs.SelfAnnotation.Judgements
import Gloss.Proofs.SelfAnnotation
import Gloss.Proofs.Verification.Entries
import Gloss.Proofs.Verification.Identity
import Gloss.Proofs.Order.Remarks
import Gloss.Proofs.Order.Script
import Gloss.Proofs.Order.Inferences
import Gloss.Proofs.Order.Performance
import Gloss.Proofs.Order.Playing
import Gloss.Proofs.Order.Likeness
import Gloss.Proofs.Order.Settling
import Gloss.Proofs.Order.Counterparts
import Gloss.Proofs.Order.Checks
import Gloss.Proofs.Order.Checking
import Gloss.Proofs.Order.Headers
import Gloss.Proofs.Order.Heads
import Gloss.Proofs.Order.Laid
import Gloss.Proofs.Order.Reordering
import Gloss.Proofs.Order.Laying
import Gloss.Proofs.Order.Placing
import Gloss.Proofs.Order.Filing
import Gloss.Proofs.Order.Slots
import Gloss.Proofs.Order.Views
import Gloss.Proofs.Order.Rounds
import Gloss.Proofs.Order.Confluence
import Gloss.Proofs.Order
import Gloss.Proofs.Audit.Inference
import Gloss.Proofs.Audit.Files
import Gloss.Proofs.Audit.Soundness
import Gloss.Proofs.Audit.Tallies
import Gloss.Proofs.Audit.Mirrors
import Gloss.Proofs.Audit.Candidates
import Gloss.Proofs.Audit.Inferring
import Gloss.Proofs.Audit.Checking
import Gloss.Proofs.Audit.Arranging
import Gloss.Proofs.Audit.Runs
import Gloss.Proofs.Audit.Declaring
import Gloss.Proofs.Audit.Visits
import Gloss.Proofs.Audit.Resolved
import Gloss.Proofs.Grammar.Laminar
import Gloss.Proofs.CommandLine.ExitCodes
import Gloss.Proofs.References.Answers
import Gloss.Proofs.References.Walks
import Gloss.Proofs.References.Files
import Gloss.Proofs.References.Diagnostics
import Gloss.Proofs.Scoping.Values
import Gloss.Proofs.Scoping.Members
import Gloss.Proofs.Scoping.Seen
import Gloss.Proofs.Scoping
import Gloss.Proofs.Resolution.Locating
import Gloss.Proofs.Fixture.Leftmost
import Gloss.Proofs.Fixture.Restoring
import Gloss.Proofs.Fixture.Scanning
import Gloss.Proofs.Order.Courses
import Gloss.Proofs.Recursion.Questions
import Gloss.Proofs.Recursion.Files
import Gloss.Proofs.Recursion
import Gloss.Proofs.Typing.Recording
import Gloss.Proofs.Typing.Subtypes
import Gloss.Proofs.Typing.Joins
import Gloss.Proofs.Typing.Branches
import Gloss.Proofs.Typing.Substitutions
import Gloss.Proofs.Typing.FunctionMembers
import Gloss.Proofs.Typing.Matching
import Gloss.Proofs.Typing.Operators
import Gloss.Proofs.Typing.Equality
import Gloss.Proofs.Typing.Renaming
import Gloss.Proofs.Typing.Hygiene
import Gloss.Proofs.Typing.Captures
import Gloss.Proofs.Confinement.Realms
import Gloss.Proofs.Confinement.Settings
import Gloss.Proofs.Confinement.Inferences
import Gloss.Proofs.Confinement.Heads
import Gloss.Proofs.Confinement.Declarations
import Gloss.Proofs.Confinement.Checks
import Gloss.Proofs.Confinement
import Gloss.Proofs.Order.Enactments
import Gloss.Proofs.Tree.Equality
import Gloss.Proofs.Addition.Origins
import Gloss.Proofs.Addition.Twins
import Gloss.Proofs.Addition.Inferences
import Gloss.Proofs.Addition.Heads
import Gloss.Proofs.Addition.Descriptions
import Gloss.Proofs.Addition.Extensions
import Gloss.Proofs.Addition
import Gloss.Proofs.Verification.Labels
import Gloss.Proofs.Verification.Relabelling
import Gloss.Proofs.Grammar.Matching
import Gloss.Proofs.Grammar.Nodes
import Gloss.Proofs.Grammar.Precedence
import Gloss.Proofs.Grammar.Keywords
import Gloss.Proofs.Grammar.Escapes
import Gloss.Proofs.Grammar.Locality
import Gloss.Proofs.Tree.Outlines
import Gloss.Proofs.Grammar.Derivations
import Gloss.Proofs.Grammar.Beginnings
import Gloss.Proofs.Grammar.Truncation
import Gloss.Proofs.Text.Places
import Gloss.Proofs.Tree.Ancestors
import Gloss.Proofs.Grammar.Contexts
import Gloss.Proofs.Typing.Absorption
import Gloss.Proofs.Absorption.Replacement
import Gloss.Proofs.Absorption.Transcripts
import Gloss.Proofs.Absorption.Calls
import Gloss.Proofs.Absorption.Inferences
import Gloss.Proofs.Absorption.Checks
import Gloss.Proofs.Absorption
