import Lossless.Visitor
import Lossless.Xml.Equality
import Lossless.Xml.Edit
import Lossless.Text.WordChar
import Lossless.Text.Blank
import Lossless.Interchange.JavaEdits
import Lossless.Interchange.Rules
import Lossless.Interchange.Projects
import Lossless.Interchange.Sources
import Lossless.Interchange.Samples
import Lossless.Xml.Build
import Lossless.Json.Reader
import Lossless.Json.Writer
import Lossless.Proofs.Recipe.Gating
import Lossless.Proofs.Java.References
import Lossless.Proofs.Recipe.Independence
import Lossless.Proofs.Run.Partial
import Lossless.Proofs.Precondition.Keys
import Lossless.Proofs.Pipeline.Ordered
import Lossless.Proofs.Visitor.Walk
import Lossless.Proofs.Visitor.Entries
import Lossless.Proofs.Java.Exchange
import Lossless.Proofs.Pattern.Faults
import Lossless.Proofs.Pattern.TypeMeaning
import Lossless.Proofs.Pattern.NameOnly
import Lossless.Proofs.Pattern.Unknown
import Lossless.Proofs.Pattern.Arrays
import Lossless.Proofs.Deletion.Text
import Lossless.Proofs.Deletion.Idempotence
import Lossless.Proofs.Deletion.Imports
import Lossless.Proofs.Maven.Sync
import Lossless.Proofs.Maven.Wrapper
import Lossless.Proofs.Sample.Deletion
import Lossless.Proofs.Xml.Balance
import Lossless.Proofs.Visitor.Isomorphic
import Lossless.Proofs.Recipe.Marking
import Lossless.Proofs.Pattern.NameMeaning
import Lossless.Proofs.Deletion.Position
import Lossless.Proofs.Pattern.Dimensions
import Lossless.Proofs.Maven.Inheritance
import Lossless.Proofs.Precondition.CallKeys
import Lossless.Proofs.Recipe.Options
import Lossless.Proofs.Recipe.Validation
import Lossless.Proofs.Visitor.Messages
import Lossless.Proofs.Maven.Substitution
import Lossless.Proofs.Java.Names
import Lossless.Proofs.Java.Imports
