import InfraSmells.Checker.Basic
import InfraSmells.Policy.Lookup
import InfraSmells.Policy.Rules

/-!
# References between resources

A resource of kind `k` and name `n` is referred to as `k.n.attribute` in the text of an expression.
The reference begins the text or follows a character that belongs to no name. Some resources need a
companion that refers to them (`missingCompanion`); a name that is no readable text cannot be
searched for, and the search breaks down.
-/

namespace InfraSmells.Policy

/-- A character of a name or of a path of names. -/
def isPathChar (c : Char) : Bool :=
  Text.isWordChar c || c == '.' || c == '-'

/-- The ends of a text that follow a character outside names. -/
def afterBreaks : List Char → List (List Char)
  | [] => []
  | c :: cs => if isPathChar c then afterBreaks cs else cs :: afterBreaks cs

/-- The ends of a text at which a reference may begin. -/
def referenceStarts (text : String) : List (List Char) :=
  let cs := Text.characters text
  cs :: afterBreaks cs

/-- The kind of a resource: its type without the mark of resources. -/
def kindOf (type : String) : String :=
  Text.dropStart "resource." type

/-- Does the expression refer to an attribute of the resource of this kind and name? -/
def refersTo (kind name : String) (e : Expr) : Bool :=
  (referenceStarts e.text).any (Text.beginsWith (Text.characters (kind ++ "." ++ name ++ ".")))

/-- The name of the first resource of a kind that the expression refers to. -/
def referenced? (kind : String) (e : Expr) : Option String :=
  (referenceStarts e.text).findSome? fun cs => do
    let rest ← Text.afterStart (Text.characters (kind ++ ".")) cs
    let name := rest.takeWhile fun c => Text.isWordChar c || c == '-'
    if name.isEmpty then none else some (Text.ofCharacters name)

/-- The resource in scope of a type and name that the value of an attribute refers to. -/
def referencedResource? (c : Context) (kind : String) (e : Expr) : Option Resource :=
  (referenced? kind e).bind (c.resource? ("resource." ++ kind))

/-- The first resource in scope of a type whose attribute refers to the resource of this kind and
name. -/
def companion? (c : Context) (kind name type attr : String) : Option Resource :=
  (c.resources type).find? fun other =>
    (valued? (attribute? other attr)).any fun p => refersTo kind name p.value

/-- Reports a resource to which no resource of the type refers through the attribute. Resources whose
name is not written out are passed over. -/
def missingCompanion (c : Context) (code : String) (r : Resource) (path type attr : String) :
    Verdict :=
  match r.literalName? with
  | none => some []
  | some name =>
    if Text.hasStray name then none
    else if (companion? c (kindOf r.type) name type attr).isSome then some []
    else
      some [(Finding.of code (.resource r) path).suggest
        ("check for a required resource '" ++ kindOf type ++ "' associated to an '" ++
          kindOf r.type ++ "' resource")]

mutual

/-- Does an attribute, or one below it, refer to a resource in scope of one of the kinds? -/
def isAttached (c : Context) (kinds : List String) : Pair → Bool
  | ⟨_, _, _, value, _, children⟩ =>
    if value.isAbsent then someAttached c kinds children
    else kinds.any fun kind => (referencedResource? c kind value).isSome

/-- `isAttached` of some attribute. -/
def someAttached (c : Context) (kinds : List String) : List Pair → Bool
  | [] => false
  | p :: ps => isAttached c kinds p || someAttached c kinds ps

end

/-- Reports a name record that points at no resource in scope. -/
def attachedResource (config : Config) (c : Context) (e : Element) (path : String) :
    List Finding :=
  match e with
  | .resource r =>
    let isAddress := (valued? (attribute? r "type")).any fun p => p.value.literal == "a"
    if r.type == "resource.aws_route53_record" && isAddress &&
        !someAttached c config.policy.attachable r.attributes then
      [Finding.of "sec_attached_resource" e path]
    else []
  | _ => []

end InfraSmells.Policy
