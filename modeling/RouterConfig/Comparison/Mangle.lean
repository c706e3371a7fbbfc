import RouterConfig.Tree.Overlay

/-!
# RouterConfig — names as identifiers

Configuration names may hold hyphens, which template languages do not allow in identifiers.
-/

namespace RouterConfig

/-- A name with an underscore for every hyphen. -/
def mangleName (name : String) : String :=
  String.ofList (name.toList.map fun c => if c = '-' then '_' else c)

/-- Children with every name, at any depth, as an identifier (`default_mangler`). -/
def mangleChildren (children : Children) : Children :=
  Keyed.ofList (Tree.mapEntries mangleName children)

end RouterConfig
