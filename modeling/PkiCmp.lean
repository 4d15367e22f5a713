import PkiCmp.Addressing
import PkiCmp.Certpath
import PkiCmp.Client.Failures
import PkiCmp.Client.Pacing
import PkiCmp.Codec.Headers
import PkiCmp.Codec.Possession
import PkiCmp.Codec.Subjects
import PkiCmp.Server.Acceptance
import PkiCmp.Server.Constraints
import PkiCmp.Server.Credentials
import PkiCmp.Server.Deadline
import PkiCmp.Server.Freshness
import PkiCmp.Server.Holder
import PkiCmp.Server.Identifiers
import PkiCmp.Server.References
import PkiCmp.Server.Replay
import PkiCmp.Server.Sealing
import PkiCmp.Server.Verdicts
import PkiCmp.Server.Waiting
