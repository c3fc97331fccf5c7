import NodeWatch.Store.Operation

/-!
Calls on a store as lines of a log.
-/

namespace NodeWatch.Store

/-- What stands for a value that is not given. -/
def absentText : String := "-"

def instantText (t : Time.Instant) : String := String.ofList t.offsetText

/-- A call with its values; of a patch, with those that reconciling sets. -/
def Operation.text : Operation → String
  | findByAddress a => "find_by_ip " ++ a.toString
  | findByName n => "find_by_name " ++ n
  | create n => " ".intercalate ["create", n.name, n.address.toString, n.status.text, n.role.text,
      n.architecture, n.model, n.mac.getD absentText, instantText n.lastSeen]
  | update id v p => " ".intercalate ["update", id, "v" ++ String.ofList (Text.decimal v),
      "status=" ++ (p.status.map (·.text)).getD absentText,
      "arch=" ++ p.architecture.getD absentText,
      "model=" ++ p.model.getD absentText,
      "last_seen=" ++ (p.lastSeen.map instantText).getD absentText]
  | touch id t => "touch " ++ id ++ " " ++ instantText t
  | get id => "get " ++ id
  | list => "list"
  | delete id => "delete " ++ id

end NodeWatch.Store
