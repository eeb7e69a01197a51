import ProjectComposer.Options.Labels

/-!
Options of the ERC-721 contract: the collection, its network and the features compiled in.
-/
namespace ProjectComposer.Options.NftContract
set_option autoImplicit false
open Wire

/-! ## Alternatives -/

inductive Chain
  | arbitrum
  | arbitrumSepolia
  deriving DecidableEq, Repr

instance : Named Chain where
  all := [.arbitrum, .arbitrumSepolia]
  name
    | .arbitrum => "arbitrum"
    | .arbitrumSepolia => "arbitrum-sepolia"

inductive Feature
  | ownable
  | mintable
  | burnable
  | pausable
  | enumerable
  | uriStorage
  deriving DecidableEq, Repr

instance : Named Feature where
  all := [.ownable, .mintable, .burnable, .pausable, .enumerable, .uriStorage]
  name
    | .ownable => "ownable"
    | .mintable => "mintable"
    | .burnable => "burnable"
    | .pausable => "pausable"
    | .enumerable => "enumerable"
    | .uriStorage => "uri-storage"

/-! ## Patterns -/

/-- One or more capital letters and digits of ASCII. -/
def isSymbol (cs : List Char) : Bool :=
  !cs.isEmpty && cs.all fun c => ('A' ≤ c && c ≤ 'Z') || ('0' ≤ c && c ≤ '9')

def symbolPattern : Codec.Pattern :=
  ⟨"^[A-Z0-9]+$", isSymbol⟩

def isHexDigit (c : Char) : Bool :=
  ('a' ≤ c && c ≤ 'f') || ('A' ≤ c && c ≤ 'F') || ('0' ≤ c && c ≤ '9')

/-- Forty hexadecimal digits after `0x`. -/
def isAddress (cs : List Char) : Bool :=
  match cs with
  | '0' :: 'x' :: digits => digits.length = 40 && digits.all isHexDigit
  | _ => false

def addressPattern : Codec.Pattern :=
  ⟨"^0x[a-fA-F0-9]\x7b40\x7d$", isAddress⟩

end ProjectComposer.Options.NftContract

namespace ProjectComposer.Options
open Wire

/-! ## Options -/

structure NftContract extends Labels where
  collectionName : String := "My NFT Collection"
  collectionSymbol : String := "MNFT"
  baseUri : String := "https://api.example.com/metadata/"
  network : NftContract.Chain := .arbitrumSepolia
  features : List NftContract.Feature := [.ownable, .mintable, .burnable, .pausable, .enumerable]
  isDeployed : Bool := false
  contractAddress : Option String := none
  deriving DecidableEq, Repr

def NftContract.nameRule : Codec.TextRule :=
  { least := 1, most := some 64 }

def NftContract.symbolRule : Codec.TextRule :=
  { least := 1, most := some 11, pattern := some NftContract.symbolPattern }

def NftContract.addressRule : Codec.TextRule :=
  { pattern := some NftContract.addressPattern }

def NftContract.codec : Codec NftContract :=
  (Codec.record "ERC721StylusConfig" <| Labels.fields <|
    .withDefault ⟨"collection_name", "collectionName"⟩ (.textWith nameRule) "My NFT Collection" <|
    .withDefault ⟨"collection_symbol", "collectionSymbol"⟩ (.textWith symbolRule) "MNFT" <|
    .withDefault ⟨"base_uri", "baseUri"⟩ .text "https://api.example.com/metadata/" <|
    .withDefault (.plain "network") .oneOf .arbitrumSepolia <|
    .withFresh (.plain "features") (.list .oneOf)
      [.ownable, .mintable, .burnable, .pausable, .enumerable] <|
    .withDefault ⟨"is_deployed", "isDeployed"⟩ .bool false <|
    .withDefault ⟨"contract_address", "contractAddress"⟩ (.optional (.textWith addressRule)) none
      .done).imap
    (fun (labels, collectionName, collectionSymbol, baseUri, network, features, isDeployed,
      contractAddress, ()) =>
      { toLabels := labels
        collectionName := collectionName
        collectionSymbol := collectionSymbol
        baseUri := baseUri
        network := network
        features := features
        isDeployed := isDeployed
        contractAddress := contractAddress })
    (fun r => (r.toLabels, r.collectionName, r.collectionSymbol, r.baseUri, r.network, r.features,
      r.isDeployed, r.contractAddress, ()))

end ProjectComposer.Options
