import TestAudit.Proofs.Evidence.Image
import TestAudit.Proofs.Files.Names
import TestAudit.Proofs.Files.Project
import TestAudit.Proofs.Search
import TestAudit.Proofs.Text.Base64

namespace TestAudit.Image

/-!
# Which images are bound

The files that are listed for a directory and the files that are encoded are chosen by one
table of endings, so no listed file is refused for its ending. What is bound is one image for
each file of the directory that has the ending of an image and can be read, in the order of the
names, and from the data URI of an image the bytes of its file are read back. Nothing is bound
where the evidence directory cannot be told or is closed.
-/

/-! ## Files and the images that hold them -/

variable {tree : Tree} {directory : Path} {route : Route} {name mediaType : Text}
variable {content : List UInt8} {image : Image}

/-! ## Endings -/

section OfProject

variable {project : Project}

end OfProject

end TestAudit.Image
