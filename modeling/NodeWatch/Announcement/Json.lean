import NodeWatch.Announcement
import NodeWatch.Json.Value

/-!
Service records and announcements as JSON.
-/

namespace NodeWatch

/-- Addresses in the order of their texts. -/
def ServiceRecord.json (s : ServiceRecord) : Json :=
  .obj [("fullname", .str s.fullname), ("hostname", .str s.host), ("port", .nat s.port.toNat),
    ("type", .str s.typeDomain), ("subtype", .optStr s.subtype),
    ("addresses", .strs ((s.addresses.map (·.toString)).mergeSort fun a b => a ≤ b)),
    ("auto", .bool s.auto), ("ttl", .optStr (s.property? Observation.Key.ttl.text))]

def Announcement.fields (a : Announcement) : List (String × Json) :=
  [("instance_name", .str a.instanceName), ("service_type", .str a.serviceType),
    ("domain", .str a.domain), ("hostname", .str a.host), ("port", .nat a.port.toNat),
    ("properties", .obj (a.properties.entries.map fun (k, w) => (k, .str w))),
    ("ttl_secs", .nat a.ttlSecs.toNat),
    ("service_type_domain", .str a.serviceTypeDomain), ("fullname", .str a.fullname)]

end NodeWatch
