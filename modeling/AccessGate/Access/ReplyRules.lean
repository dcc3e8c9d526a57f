import AccessGate.Access.Request

/-!
# Attributes of replies that accept

A client's rules are taken in order. A rule whose attribute the dictionary knows and whose condition
yields a text adds the value of each text under the dictionary's name; texts that are no value of
the attribute's kind are left out. A rule marked sufficient that yielded a text ends the matter for
later rules that spell the attribute alike.
-/

namespace AccessGate.ReplyRule

/-- The texts that a rule yields for a request. -/
def texts (r : ReplyRule) (request : Request) : List String :=
  let argument := r.argument.getD ""
  match r.condition with
  | .always => [r.value]
  | .userGroup => if request.profile.isMemberOf argument then [r.value] else []
  | .userName => if Text.sameIgnoringCase request.user argument then [r.value] else []
  | .fromDirectory => request.profile.valuesOf argument

/-- The value of a text under the name of its definition, if it is one. -/
def valueOf (entry : Radius.Entry) (text : String) : Option (Radius.Name × Radius.Value) :=
  match Radius.Value.parse entry.kind text with
  | .ok v => some (entry.name, v)
  | .error _ => none

/-- The values that rules add, where attributes spelled as in `settled` are taken care of. -/
def valuesFrom (d : Radius.Dictionary) (request : Request) :
    List String → List ReplyRule → List (Radius.Name × Radius.Value)
  | _, [] => []
  | settled, r :: rest =>
    if settled.contains r.name then valuesFrom d request settled rest
    else
      match d.byName? r.name with
      | none => valuesFrom d request settled rest
      | some entry =>
        let texts := r.texts request
        let settled := if r.sufficient && !texts.isEmpty then r.name :: settled else settled
        texts.filterMap (valueOf entry) ++ valuesFrom d request settled rest

/-- The values that a list of rules adds. -/
def values (d : Radius.Dictionary) (request : Request) (rules : List ReplyRule) :
    List (Radius.Name × Radius.Value) := valuesFrom d request [] rules

/-- How many values a list of rules adds. -/
def count (d : Radius.Dictionary) (request : Request) (rules : List ReplyRule) : Nat :=
  (values d request rules).length

/-- The attributes of a reply with those that the rules add. -/
def apply (d : Radius.Dictionary) (request : Request) (rules : List ReplyRule)
    (reply : Radius.Attributes) : Radius.Attributes := reply.addAll (values d request rules)

end AccessGate.ReplyRule
