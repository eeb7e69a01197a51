import ProjectComposer.BuiltIn.Package
import ProjectComposer.Json.Writer
import ProjectComposer.Plugin.Basic
import ProjectComposer.Text.Lowercase

/-!
The ERC-721 contract: its source, a script that deploys it, a client library and a panel. Files
without a category are placed by the mappings of the plugin.
-/
namespace ProjectComposer.BuiltIn.NftContract
set_option autoImplicit false
open Wire Named Options

/-! ## Contract -/

def endpoint : NftContract.Chain → String
  | .arbitrum => "https://arb1.arbitrum.io/rpc"
  | .arbitrumSepolia => "https://sepolia-rollup.arbitrum.io/rpc"

/-- The name of the collection in lower case, its words joined by dashes. -/
def crateName (o : NftContract) : String :=
  let dashed := Text.dashed (Text.lowerChars o.collectionName.toList)
  if dashed = [] then "erc721" else String.ofList dashed

def cargoToml (o : NftContract) : String :=
  Text.lines [
    "[package]",
    "name = \"" ++ crateName o ++ "\"",
    "version = \"0.1.0\"",
    "edition = \"2021\"",
    "",
    "[dependencies]",
    "alloy-primitives = \"0.7\"",
    "alloy-sol-types = \"0.7\"",
    "stylus-sdk = \"0.6\"",
    "",
    "[features]",
    "export-abi = [\"stylus-sdk/export-abi\"]",
    "",
    "[lib]",
    "crate-type = [\"lib\", \"cdylib\"]"]

def burnMethod : String :=
  Text.lines [
    "",
    "    pub fn burn(&mut self, token_id: U256) -> Result<(), Vec<u8>> \x7b",
    "        self.erc721._burn(token_id)",
    "    \x7d"]

def mintMethod : String :=
  Text.lines [
    "",
    "    pub fn mint(&mut self, to: Address) -> Result<U256, Vec<u8>> \x7b",
    "        self.only_owner()?;",
    "        let token_id = self.total_supply.get();",
    "        self.erc721._mint(to, token_id)?;",
    "        self.total_supply.set(token_id + U256::from(1));",
    "        Ok(token_id)",
    "    \x7d"]

def contractSource (o : NftContract) : String :=
  let mint := if o.features.contains .mintable then mintMethod else ""
  let burn := if o.features.contains .burnable then burnMethod else ""
  Text.lines [
    "//! " ++ o.collectionName ++ " (" ++ o.collectionSymbol ++ ")",
    "#![cfg_attr(not(feature = \"export-abi\"), no_main)]",
    "extern crate alloc;",
    "",
    "use alloc::\x7bstring::String, vec::Vec\x7d;",
    "use stylus_sdk::\x7balloy_primitives::\x7bAddress, U256\x7d, msg, prelude::*\x7d;",
    "",
    "sol_storage! \x7b",
    "    #[entrypoint]",
    "    pub struct Collection \x7b",
    "        #[borrow]",
    "        Erc721 erc721;",
    "        address owner;",
    "        uint256 total_supply;",
    "    \x7d",
    "\x7d",
    "",
    "#[public]",
    "#[inherit(Erc721)]",
    "impl Collection \x7b",
    "    pub fn name(&self) -> String \x7b",
    "        String::from(\"" ++ o.collectionName ++ "\")",
    "    \x7d",
    "",
    "    pub fn symbol(&self) -> String \x7b",
    "        String::from(\"" ++ o.collectionSymbol ++ "\")",
    "    \x7d",
    "",
    "    pub fn base_uri(&self) -> String \x7b",
    "        String::from(\"" ++ o.baseUri ++ "\")",
    "    \x7d",
    mint ++ burn,
    "    fn only_owner(&self) -> Result<(), Vec<u8>> \x7b",
    "        if msg::sender() != self.owner.get() \x7b",
    "            return Err(b\"not owner\".to_vec());",
    "        \x7d",
    "        Ok(())",
    "    \x7d",
    "\x7d"]

def deployScript (o : NftContract) : String :=
  Text.lines [
    "/**",
    " * ERC-721 NFT Deployment Script",
    " *",
    " * Usage: ts-node scripts/deploy-erc721.ts",
    " */",
    "",
    "async function main() \x7b",
    "  const privateKey = process.env.PRIVATE_KEY;",
    "  const apiUrl = process.env.ERC721_DEPLOYMENT_API_URL || 'http://localhost:4001';",
    "",
    "  if (!privateKey) \x7b",
    "    throw new Error('PRIVATE_KEY environment variable is required');",
    "  \x7d",
    "",
    "  const response = await fetch(`$\x7bapiUrl\x7d/deploy`, \x7b",
    "    method: 'POST',",
    "    headers: \x7b 'Content-Type': 'application/json' \x7d,",
    "    body: JSON.stringify(\x7b",
    "      name: '" ++ o.collectionName ++ "',",
    "      symbol: '" ++ o.collectionSymbol ++ "',",
    "      baseUri: '" ++ o.baseUri ++ "',",
    "      rpcEndpoint: '" ++ endpoint o.network ++ "',",
    "      privateKey,",
    "    \x7d),",
    "  \x7d);",
    "  const result = await response.json();",
    "",
    "  console.log('Contract Address:', result.collectionAddress);",
    "  console.log(`NEXT_PUBLIC_NFT_ADDRESS=$\x7bresult.collectionAddress\x7d`);",
    "\x7d",
    "",
    "main().catch(console.error);"]

/-! ## Client -/

def classNames : String :=
  Text.lines [
    "export function cn(...classes: Array<string | false | null | undefined>): string \x7b",
    "  return classes.filter(Boolean).join(' ');",
    "\x7d"]

def clientLibrary (o : NftContract) : String :=
  Text.lines [
    "import \x7b createPublicClient, http, parseAbi, type Address \x7d from 'viem';",
    "",
    "const NFT_ADDRESS = process.env.NEXT_PUBLIC_NFT_ADDRESS as Address;",
    "const RPC_ENDPOINT = '" ++ endpoint o.network ++ "';",
    "",
    "const abi = parseAbi([",
    "  'function name() view returns (string)',",
    "  'function symbol() view returns (string)',",
    "  'function balanceOf(address owner) view returns (uint256)',",
    "  'function ownerOf(uint256 tokenId) view returns (address)',",
    "]);",
    "",
    "const client = createPublicClient(\x7b transport: http(RPC_ENDPOINT) \x7d);",
    "",
    "export async function fetchBalance(account: Address): Promise<bigint> \x7b",
    "  return client.readContract(\x7b address: NFT_ADDRESS, abi, functionName: 'balanceOf', " ++
      "args: [account] \x7d);",
    "\x7d",
    "",
    "export async function fetchOwner(tokenId: bigint): Promise<Address> \x7b",
    "  return client.readContract(\x7b address: NFT_ADDRESS, abi, functionName: 'ownerOf', " ++
      "args: [tokenId] \x7d);",
    "\x7d",
    "",
    "export const NFT_CONFIG = \x7b",
    "  name: '" ++ o.collectionName ++ "',",
    "  symbol: '" ++ o.collectionSymbol ++ "',",
    "  baseUri: '" ++ o.baseUri ++ "',",
    "  network: '" ++ name o.network ++ "',",
    "  features: " ++ (Json.texts (o.features.map name)).inline ++ ",",
    "\x7d as const;"]

def panel : String :=
  Text.lines [
    "'use client';",
    "",
    "import \x7b useAccount \x7d from 'wagmi';",
    "import \x7b NFT_CONFIG \x7d from '@/lib/erc721-nft';",
    "",
    "const NFT_ADDRESS = process.env.NEXT_PUBLIC_NFT_ADDRESS;",
    "",
    "export function ERC721NFTPanel() \x7b",
    "  const \x7b address \x7d = useAccount();",
    "",
    "  if (!NFT_ADDRESS) \x7b",
    "    return (",
    "      <p className=\"text-sm text-yellow-400\">",
    "        NFT collection not deployed yet. Run <code>pnpm deploy:erc721</code> to deploy.",
    "      </p>",
    "    );",
    "  \x7d",
    "",
    "  return (",
    "    <div className=\"space-y-2 rounded-lg bg-gray-800 p-4\">",
    "      <h3 className=\"text-lg font-semibold\">\x7bNFT_CONFIG.name\x7d " ++
      "(\x7bNFT_CONFIG.symbol\x7d)</h3>",
    "      <p className=\"font-mono text-xs\">\x7bNFT_ADDRESS\x7d</p>",
    "      <p className=\"text-sm\">Connected: \x7baddress ?? 'not connected'\x7d</p>",
    "    </div>",
    "  );",
    "\x7d"]

def docs (o : NftContract) : String :=
  let network := match o.network with
    | .arbitrum => "Arbitrum One"
    | .arbitrumSepolia => "Arbitrum Sepolia"
  let features := Text.joinTexts "\n" (o.features.map fun f => "- **" ++ name f ++ "**: Enabled")
  Text.lines [
    "An ERC-721 NFT collection for " ++ network ++ " using Stylus.",
    "",
    "## Collection Details",
    "",
    "- **Name:** " ++ o.collectionName,
    "- **Symbol:** " ++ o.collectionSymbol,
    "- **Base URI:** " ++ o.baseUri,
    "- **Network:** " ++ name o.network,
    "",
    "## Deployment",
    "",
    "Run `pnpm deploy:erc721` and copy the printed address into `NEXT_PUBLIC_NFT_ADDRESS`.",
    "",
    "## Contract Features",
    "",
    features]

/-! ## Generator -/

def output (o : NftContract) : Output where
  files := [
    ⟨"contract/Cargo.toml", cargoToml o, none⟩,
    ⟨"contract/src/lib.rs", contractSource o, none⟩,
    ⟨"src/cn.ts", classNames, none⟩,
    ⟨"src/ERC721NFTPanel.tsx", panel, none⟩,
    ⟨"deploy-erc721.ts", deployScript o, some .contractScripts⟩,
    ⟨"erc721-nft.ts", clientLibrary o, some .frontendLib⟩]
  envVars := [
    { key := "NEXT_PUBLIC_NFT_ADDRESS"
      description := "Deployed ERC721 NFT address"
      required := false
      default := o.contractAddress },
    { key := "PRIVATE_KEY"
      description := "Private key for deployment and transactions"
      secret := true },
    { key := "ERC721_DEPLOYMENT_API_URL"
      description := "URL of the ERC721 deployment API"
      required := false
      default := some "http://localhost:4001" }]
  scripts := [
    { name := "deploy:erc721"
      command := "ts-node scripts/deploy-erc721.ts"
      description := some "Deploy ERC721 collection" },
    { name := "nft:info"
      command := "ts-node scripts/nft-info.ts"
      description := some "Get NFT collection information" }]
  docs := [⟨"docs/erc721-nft.md", "ERC-721 NFT Collection", docs o⟩]
  dependencies := [Package.viem.runtime, Package.tsNode.development]

def options : Config → NftContract
  | .nftContract o => o
  | _ => {}

def generate (_ : Node) (c : Context) : Generated :=
  let o := options c.config
  { log := ["Generated ERC721 Stylus NFT: " ++ o.collectionName ++ " (" ++ o.collectionSymbol ++
      ") on " ++ name o.network]
    result := .ok (.output (output o)) }

def plugin : Plugin where
  card :=
    { id := "erc721-stylus"
      name := "ERC-721 Stylus NFT"
      description := "Deploy and interact with ERC-721 NFTs on Arbitrum Stylus"
      field := .contracts
      tags := ["erc721", "nft", "arbitrum", "stylus", "deployment"] }
  schema := .nftContract
  ports := [
    { id := "wallet-in", name := "Wallet Connection", direction := .input, dataType := .config },
    { id := "nft-out", name := "NFT Contract", direction := .output, dataType := .contract }]
  mappings := [
    ("src/ERC721NFTPanel.tsx", .frontendComponents),
    ("src/cn.ts", .frontendLib),
    ("contract/**", .contractSource)]
  generate := generate

end ProjectComposer.BuiltIn.NftContract
