import CWithClasses.Check.Meaning
import CWithClasses.Proofs.Allocation
import CWithClasses.Proofs.Annotation
import CWithClasses.Proofs.Arguments
import CWithClasses.Proofs.Attachment
import CWithClasses.Proofs.Balance
import CWithClasses.Proofs.Bindings
import CWithClasses.Proofs.Blurring
import CWithClasses.Proofs.Branches
import CWithClasses.Proofs.ClassNames
import CWithClasses.Proofs.Conforming
import CWithClasses.Proofs.Congruence
import CWithClasses.Proofs.Defaults
import CWithClasses.Proofs.Dimensions
import CWithClasses.Proofs.Exports.Loop
import CWithClasses.Proofs.Flattening
import CWithClasses.Proofs.Grounding.Course
import CWithClasses.Proofs.Headers
import CWithClasses.Proofs.Indexing
import CWithClasses.Proofs.Integers
import CWithClasses.Proofs.Jumps
import CWithClasses.Proofs.Logic.Bracket
import CWithClasses.Proofs.Logic.Tally
import CWithClasses.Proofs.Logic.Weighed
import CWithClasses.Proofs.MemberTables.Class
import CWithClasses.Proofs.Members.Order
import CWithClasses.Proofs.Nesting
import CWithClasses.Proofs.Opacity
import CWithClasses.Proofs.Operations
import CWithClasses.Proofs.Ownership
import CWithClasses.Proofs.Placement
import CWithClasses.Proofs.Prototypes
import CWithClasses.Proofs.Redefinition
import CWithClasses.Proofs.Spelling
import CWithClasses.Proofs.Texts
import CWithClasses.Proofs.Truncation
import CWithClasses.Proofs.TypeNames
import CWithClasses.Proofs.Unknown
import CWithClasses.Proofs.Widening
