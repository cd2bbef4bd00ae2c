/-!
# Settings

What a compilation can be told: how strict it is about names, and what it calls the members that no
source names.

* `Settings.standard`, `Settings.strict`, `Settings.lenient`: the three presets.
-/

namespace DomainForms

/-- The settings of a compilation. -/
structure Settings where
  /-- Refuse a name that is neither declared nor a system type. -/
  strictTypeResolution : Bool
  /-- Let the last of several declarations with one full name win. -/
  allowDuplicateTypes : Bool
  /-- Name of the property of a shorthand value type. -/
  defaultPropertyName : String
  /-- What is put before the name of a service to name its interface. -/
  serviceInterfacePrefix : String
  /-- Name of the operations of a service. -/
  serviceOperationName : String
deriving DecidableEq, Repr

namespace Settings

/-- Unknown names are reference types, and a full name is declared once. -/
def standard : Settings := ⟨false, false, "Value", "I", "Execute"⟩

/-- Every name has to be known. -/
def strict : Settings := { standard with strictTypeResolution := true }

/-- Unknown names are reference types, and later declarations replace earlier ones. -/
def lenient : Settings := { standard with allowDuplicateTypes := true }

end Settings

end DomainForms
