import Legible.Options
import Legible.Token.Index

/-!
# Configurations

A configuration is everything that output properties are computed from: the three
documents and the options. The token index always is that of the token document.
-/

namespace Legible

/-- The documents and options, with the index of the token document. -/
structure Configuration where
  tokens : Document
  theme : Document
  uiKit : Document
  options : Options
  index : Token.Index
  index_eq : index = Token.Index.ofDocument tokens

namespace Configuration

/-- The configuration of three documents and options. -/
def ofDocuments (tokens theme uiKit : Document) (options : Options) : Configuration :=
  ⟨tokens, theme, uiKit, options, Token.Index.ofDocument tokens, rfl⟩

/-- The configuration with another token document. -/
def withTokens (configuration : Configuration) (tokens : Document) : Configuration :=
  ofDocuments tokens configuration.theme configuration.uiKit configuration.options

/-- The configuration with another theme document. -/
def withTheme (configuration : Configuration) (theme : Document) : Configuration :=
  { configuration with theme }

/-- The configuration with another document of component bindings. -/
def withUiKit (configuration : Configuration) (uiKit : Document) : Configuration :=
  { configuration with uiKit }

/-- The configuration with other options. -/
def withOptions (configuration : Configuration) (options : Options) : Configuration :=
  { configuration with options }

/-- The resolver of a mode. -/
def resolver (configuration : Configuration) (mode : Mode) : Resolver :=
  ⟨configuration.index, configuration.theme, mode, configuration.options.maxReferenceDepth⟩

/-- The modes that the theme declares, light first. -/
def modes (configuration : Configuration) : List Mode :=
  Mode.all.filter fun mode => (configuration.theme.get? ["themes", mode.text]).isSome

end Configuration

end Legible
