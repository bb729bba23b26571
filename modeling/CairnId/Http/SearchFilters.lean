import CairnId.Database.Listings
import CairnId.Http.App

/-!
# Texts to search for

How a search text becomes the filter of a list: `q` of the user list in
`admin_query/users.rs`, `action` and `target` of the audit list in
`admin_query/audit_events.rs`, and the options of the export in `export/options.rs`.
-/

namespace CairnId

def adminAuditPrefixFilter (value tooLargeMessage : String) : Except ApiError (Option String) :=
  let trimmed := trim value
  if 128 < trimmed.utf8ByteSize then .error (.badRequest tooLargeMessage)
  else .ok (if trimmed.isEmpty then none else some trimmed)

/-- The parameter `q`. -/
def adminUserSearchPrefix (value : String) : Except ApiError (Option String) :=
  adminAuditPrefixFilter value "admin user search query too large"

/-- The error is the text of the configuration error. -/
def auditExportPrefix (value tooLargeMessage : String) : Except String (Option String) :=
  let trimmed := trim value
  if 128 < trimmed.utf8ByteSize then .error tooLargeMessage
  else if trimmed.isEmpty then .ok none
  else .ok (some (asciiLowercase trimmed))

end CairnId
