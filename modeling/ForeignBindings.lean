import ForeignBindings.CommandLine.Run
import ForeignBindings.Main
import ForeignBindings.Proofs.Checks
import ForeignBindings.Proofs.Preprocessor
import ForeignBindings.Proofs.Conditionals
import ForeignBindings.Proofs.Options
import ForeignBindings.Proofs.Shapes
import ForeignBindings.Proofs.Dialects
import ForeignBindings.Proofs.Items
import ForeignBindings.Proofs.Actions
import ForeignBindings.Proofs.Scopes
import ForeignBindings.Proofs.Drafts
import ForeignBindings.Proofs.Validity
import ForeignBindings.Proofs.Packages
import ForeignBindings.Proofs.Layout
import ForeignBindings.Proofs.Tiling
import ForeignBindings.Proofs.Reading
import ForeignBindings.Proofs.Grammar
import ForeignBindings.Proofs.Sections
import ForeignBindings.Proofs.Counterparts
import ForeignBindings.Proofs.Brackets
import ForeignBindings.Proofs.Sessions
import ForeignBindings.Proofs.Splices
import ForeignBindings.Proofs.Starts
import ForeignBindings.Proofs.Namespaces
import ForeignBindings.Proofs.Forms
import ForeignBindings.Proofs.Refusals
import ForeignBindings.Proofs.Paths
import ForeignBindings.Proofs.Tree
import ForeignBindings.Proofs.Outputs
import ForeignBindings.Proofs.Runs
import ForeignBindings.Proofs.Stages
import ForeignBindings.Proofs.Words
import ForeignBindings.Proofs.Calls
import ForeignBindings.Proofs.Literals
import ForeignBindings.Proofs.Notices
import ForeignBindings.Proofs.Composition
import ForeignBindings.Proofs.Blocks
import ForeignBindings.Proofs.Modules
import ForeignBindings.Proofs.Outlines
import ForeignBindings.Proofs.Unscoped
import ForeignBindings.Proofs.OptionSites
import ForeignBindings.Proofs.Spellings
import ForeignBindings.Proofs.Assignments
import ForeignBindings.Proofs.Numerals
import ForeignBindings.Proofs.Targets
import ForeignBindings.Proofs.SlotCounts
import ForeignBindings.Proofs.Newtypes
import ForeignBindings.Proofs.Parameters
import ForeignBindings.Proofs.Atoms
import ForeignBindings.Proofs.Spacing
import ForeignBindings.Proofs.Comments
import ForeignBindings.Proofs.Pointers
import ForeignBindings.Proofs.Associated
import ForeignBindings.Proofs.FileNames
import ForeignBindings.Proofs.Frames
import ForeignBindings.Proofs.Values
import ForeignBindings.Proofs.Decimals
import ForeignBindings.Proofs.RealLiterals
import ForeignBindings.Proofs.Doubles
