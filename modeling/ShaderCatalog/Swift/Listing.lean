import ShaderCatalog.Text.Basic

namespace ShaderCatalog

/-! Listings: lines of code indented by the blocks that they stand in. -/

structure Listing where
  level : Int
  lines : List Text
deriving DecidableEq

namespace Listing

def empty : Listing :=
  ⟨0, []⟩

/-- Four spaces for every level; a level below zero indents by nothing. -/
def indentation (level : Int) : Text :=
  List.replicate (4 * level.toNat) ' '

def acceptsBlank (listing : Listing) : Bool :=
  listing.lines.getLast?.any (!·.isEmpty)

def addBlank (listing : Listing) : Listing :=
  if listing.acceptsBlank then
    { listing with lines := listing.lines ++ [[]] }
  else
    listing

/-- Adds a line at the level of the listing. Two blank lines never follow one
another, and no listing starts with one. -/
def addLine (listing : Listing) (line : Text) : Listing :=
  if line = [] then
    listing.addBlank
  else
    { listing with lines := listing.lines ++ [indentation listing.level ++ line] }

def openBlock (listing : Listing) (header : Text) : Listing :=
  let opened := listing.addLine (header ++ " \x7b".toList)
  { opened with level := opened.level + 1 }

def closeBlock (listing : Listing) : Listing :=
  addLine { listing with level := listing.level - 1 } "\x7d".toList

def block (header : Text) (body : Listing → Listing) (listing : Listing) : Listing :=
  (body (listing.openBlock header)).closeBlock

def text (listing : Listing) : Text :=
  Text.joinLines listing.lines ++ ['\n']

end Listing

end ShaderCatalog
