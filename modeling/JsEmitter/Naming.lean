import JsEmitter.HostRefs
import JsEmitter.Linked.Class

/-!
# Names of generated definitions

Every name that is defined at top level starts with a dollar and a mark for what it names, so it
can only clash with host names that a filter accepts. The host names that the current session
assumes to be in use are avoided by appending a number. Names of properties are never changed.
-/
namespace JsEmitter

/-- The naming scheme of a session: the host names that it avoids. -/
structure Naming where
  assumed : HostRefs
deriving DecidableEq

instance : Inhabited Naming := ⟨⟨∅⟩⟩

namespace Naming

/-- The name with a number appended. -/
def numbered (name : String) (number : Nat) : String := name ++ "$" ++ toString number

/-- The first of the numbered names, from a number on, that is not assumed; among so many names
that all but one could be. -/
def firstFree (naming : Naming) (name : String) : Nat → Nat → String
  | 0, number => numbered name number
  | bound + 1, number =>
    if naming.assumed.contains (numbered name number) then
      naming.firstFree name bound (number + 1)
    else numbered name number

/-- The name, or else the first numbered name that is not assumed. There are fewer assumed names
than candidates, so one of them is free. -/
def avoidClash (naming : Naming) (name : String) : String :=
  if naming.assumed.contains name then naming.firstFree name naming.assumed.size 1 else name

/-- A mark followed by an encoded name. -/
def plainName (mark name : String) : String := mark ++ encode name

/-- A mark followed by an encoded class and an encoded member of it. -/
def memberName (mark : String) (owner : ClassName) (member : String) : String :=
  mark ++ owner.encoded ++ "__" ++ encode member

/-- The mark of the free functions that come from the methods of a namespace. -/
def functionMark : MemberNamespace → String
  | .instancePublic => "$f_"
  | .staticPublic => "$s_"
  | .instancePrivate => "$p_"
  | .staticPrivate => "$ps_"
  | .constructor => "$ct_"
  | .staticConstructor => "$sct_"

/-- The constructor of a class. -/
def classConstructor (naming : Naming) (owner : ClassName) : String :=
  naming.avoidClash (plainName "$c_" owner.text)

/-- The function without a body that shares the prototype of a class, to inherit from. -/
def classHelper (naming : Naming) (owner : ClassName) : String :=
  naming.avoidClash (plainName "$h_" owner.text)

/-- The free function of a method that lives outside its class definition. -/
def freeFunction (naming : Naming) (home : MemberNamespace) (owner : ClassName)
    (method : MethodName) : String :=
  naming.avoidClash (memberName (functionMark home) owner method.text)

/-- The variable of a static field. -/
def staticField (naming : Naming) (owner : ClassName) (field : FieldName) : String :=
  naming.avoidClash (memberName "$t_" owner field.text)

/-- The function that tests for instances of a class. -/
def instanceTest (naming : Naming) (owner : ClassName) : String :=
  naming.avoidClash (plainName "$is_" owner.text)

/-- The function that casts to a class. -/
def instanceCast (naming : Naming) (owner : ClassName) : String :=
  naming.avoidClash (plainName "$as_" owner.text)

/-- The type data of a class. -/
def typeData (naming : Naming) (owner : ClassName) : String :=
  naming.avoidClash (plainName "$d_" owner.text)

/-- The function that gives the instance of a singleton. -/
def moduleAccessor (naming : Naming) (owner : ClassName) : String :=
  naming.avoidClash (plainName "$m_" owner.text)

/-- The variable that holds the instance of a singleton. -/
def moduleInstance (naming : Naming) (owner : ClassName) : String :=
  naming.avoidClash (plainName "$n_" owner.text)

/-- The local name of an export. -/
def exportBinding (naming : Naming) (name : String) : String :=
  naming.avoidClash (plainName "$e_" name)

/-- The local name of an imported external module. -/
def externalImport (naming : Naming) (source : String) : String :=
  naming.avoidClash (plainName "$i_" source)

/-- The local name of an imported module of the program. -/
def internalImport (naming : Naming) (id : ModuleId) : String :=
  naming.avoidClash (plainName "$j_" id.text)

/-- A definition of the bootstrap library. -/
def bootstrap (naming : Naming) (name : String) : String := naming.avoidClash ("$" ++ name)

/-- The property of a method. -/
def methodProperty (method : MethodName) : String := method.encoded

/-- The property of an instance field. -/
def fieldProperty (field : FieldName) : String := "f_" ++ field.encoded

end Naming

end JsEmitter
