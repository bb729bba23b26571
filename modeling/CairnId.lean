import CairnId.Grounds
import CairnId.FilterQuoting
import CairnId.GroupPatch
import CairnId.Projections
import CairnId.Patchable
import CairnId.ReplaceByPatch
import CairnId.RedirectTargets
import CairnId.Consents
import CairnId.Introspection
import CairnId.Codes
import CairnId.Families
import CairnId.Memberships
import CairnId.Provisioning
import CairnId.KeyRotation
import CairnId.Logout
import CairnId.Publication
import CairnId.Bulk
import CairnId.BulkReports
import CairnId.Listings
import CairnId.Sessions
import CairnId.RedirectResponses
import CairnId.AuthorizeUrls
import CairnId.ConsentScopes
import CairnId.TotpWindows
import CairnId.RecoveryCodes
import CairnId.LoginThrottle
import CairnId.ClientAddress
import CairnId.WebOrigins
import CairnId.QueuedEmails
import CairnId.FormDecoding
import CairnId.ScopeStrings
import CairnId.MetadataRedaction
import CairnId.NormalizedExports
import CairnId.EvidenceRoots
import CairnId.PrefixSearch
import CairnId.EmailQueue
import CairnId.AdministratorRuns
import CairnId.EvidenceFailures
import CairnId.PlanExports
import CairnId.ExportFormats
import CairnId.Concurrency.Keeping
import CairnId.Database.Deactivations
