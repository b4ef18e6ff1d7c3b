import PspBoot.Chain.Basic

/-!
# Factories

A host may open some locators itself, for instance the addresses of documents that belong to
another program.  It registers a factory for the beginning of such paths.  `Factories` keeps them in
the order in which their beginnings were first registered, and the first that fits a locator is
responsible for it.
-/

namespace PspBoot

/-- Opens the innermost layer for a locator. -/
abbrev Factory (η : Type) := Locator → StateM (World η) (Layer η)

/-- The factories of a host, by the beginnings of the paths they are responsible for. -/
structure Factories (η : Type) where
  entries : List (String × Factory η) := []

namespace Factories

variable {η : Type}

/-- The entries with one added at the end, or changed in its place if its beginning is known. -/
def upsert (beginning : String) (factory : Factory η) :
    List (String × Factory η) → List (String × Factory η)
  | [] => [(beginning, factory)]
  | entry :: entries =>
      if entry.1 = beginning then
        (beginning, factory) :: entries
      else
        entry :: upsert beginning factory entries

/-- Registers a factory, in place of one already registered for the same beginning. -/
def register (factories : Factories η) (beginning : String) (factory : Factory η) :
    Factories η where
  entries := upsert beginning factory factories.entries

/-- The factory responsible for a locator, with its beginning. -/
def find? (factories : Factories η) (locator : Locator) : Option (String × Factory η) :=
  factories.entries.find? fun entry => locator.startsWith entry.1

/-- The registered beginnings in the order in which they are tried. -/
def beginnings (factories : Factories η) : List String :=
  factories.entries.map Prod.fst

/-- The number of registered beginnings. -/
def size (factories : Factories η) : Nat :=
  factories.entries.length

/-- Whether no factory is registered. -/
def isEmpty (factories : Factories η) : Bool :=
  factories.entries.isEmpty

end Factories

end PspBoot
