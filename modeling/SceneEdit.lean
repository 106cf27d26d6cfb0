import SceneEdit.LogFile
import SceneEdit.Session.Execute
import SceneEdit.Proofs.Path.Typing
import SceneEdit.Proofs.Session.AllOrNothing
import SceneEdit.Proofs.Value.Location
import SceneEdit.Proofs.Types.Recall
import SceneEdit.Proofs.Path.ReadWrite
import SceneEdit.Proofs.Coercion.RoundTrip
import SceneEdit.Proofs.Path.RoundTrip
import SceneEdit.Proofs.Session.Types
import SceneEdit.Proofs.Query.Order
import SceneEdit.Proofs.Scene.Later
import SceneEdit.Proofs.Scene.Account
import SceneEdit.Proofs.Session.Ledger
import SceneEdit.Proofs.Session.Telling
import SceneEdit.Proofs.Session.Plan
import SceneEdit.Proofs.Session.Account
import SceneEdit.Proofs.Session.Carrying
import SceneEdit.Proofs.Session.Modify
import SceneEdit.Proofs.Session.Compatible
import SceneEdit.Proofs.Path.Grammar
import SceneEdit.Proofs.Path.Independence
import SceneEdit.Proofs.Types.Stability
import SceneEdit.Proofs.Query.Membership
import SceneEdit.Proofs.Query.Enumeration
import SceneEdit.Proofs.Scene.Copy
import SceneEdit.Proofs.Session.Delete
import SceneEdit.Proofs.Coercion.Merge
import SceneEdit.Proofs.Path.ObjectToken
import SceneEdit.Proofs.Scene.Listing
import SceneEdit.Proofs.Session.Regroup
import SceneEdit.Proofs.Session.Batch
import SceneEdit.Proofs.Path.Repetition
import SceneEdit.Proofs.Types.Partition
import SceneEdit.Proofs.Coercion.Absence
import SceneEdit.Proofs.Coercion.IntegerText
import SceneEdit.Proofs.Coercion.OwnToken
import SceneEdit.Proofs.Coercion.AssetPath
import SceneEdit.Proofs.Coercion.OwnLabel
import SceneEdit.Proofs.Path.WholeRead
import SceneEdit.Proofs.Scene.HierarchyPath
import SceneEdit.Proofs.Query.Reference
import SceneEdit.Proofs.Session.Motion
import SceneEdit.Proofs.Session.Create
import SceneEdit.Proofs.Session.Finding
import SceneEdit.Proofs.Suggestion.Closest
import SceneEdit.Proofs.Session.Paging
import SceneEdit.Proofs.FileTree
import SceneEdit.Proofs.LogFile
import SceneEdit.Proofs.Coercion.Declared
import SceneEdit.Proofs.Coercion.Termination
import SceneEdit.Proofs.Scene.Descendants
