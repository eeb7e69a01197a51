import ProjectComposer.BuiltIn.Package
import ProjectComposer.Options.FrontendScaffold
import ProjectComposer.Blueprint.Basic
import ProjectComposer.Text.Lowercase

/-!
The texts of the frontend application: configuration, pages, wallet connection and documentation.
-/
namespace ProjectComposer.BuiltIn.Frontend
set_option autoImplicit false
open Wire Named Options

/-! ## Configuration -/

def nextConfig : String :=
  Text.lines [
    "/** @type \x7bimport('next').NextConfig\x7d */",
    "const nextConfig = \x7b",
    "  reactStrictMode: true,",
    "  webpack: (config) => \x7b",
    "    config.externals.push('pino-pretty', 'lokijs', 'encoding');",
    "    return config;",
    "  \x7d,",
    "\x7d;",
    "",
    "module.exports = nextConfig;"]

def tsconfig (sources : String) : String :=
  let sourceRoot := if sources = "" then "./*" else "./" ++ sources ++ "/*"
  Text.lines [
    "\x7b",
    "  \"compilerOptions\": \x7b",
    "    \"target\": \"ES2020\",",
    "    \"lib\": [\"dom\", \"dom.iterable\", \"esnext\"],",
    "    \"strict\": true,",
    "    \"noEmit\": true,",
    "    \"module\": \"esnext\",",
    "    \"moduleResolution\": \"bundler\",",
    "    \"jsx\": \"preserve\",",
    "    \"incremental\": true,",
    "    \"plugins\": [\x7b \"name\": \"next\" \x7d],",
    "    \"paths\": \x7b \"@/*\": [\"" ++ sourceRoot ++ "\"] \x7d",
    "  \x7d,",
    "  \"include\": [\"next-env.d.ts\", \"**/*.ts\", \"**/*.tsx\", \".next/types/**/*.ts\"],",
    "  \"exclude\": [\"node_modules\"]",
    "\x7d"]

def tailwindConfig (o : FrontendScaffold) : String :=
  let darkMode := if o.darkModeSupport then "  darkMode: 'class',\n" else ""
  Text.lines [
    "/** @type \x7bimport('tailwindcss').Config\x7d */",
    "module.exports = \x7b",
    darkMode ++ "  content: ['./**/*.\x7bts,tsx\x7d'],",
    "  theme: \x7b extend: \x7b\x7d \x7d,",
    "  plugins: [],",
    "\x7d;"]

def globalStyles : String :=
  Text.lines [
    "@tailwind base;",
    "@tailwind components;",
    "@tailwind utilities;"]

def envTypes : String :=
  Text.lines [
    "declare namespace NodeJS \x7b",
    "  interface ProcessEnv \x7b",
    "    NEXT_PUBLIC_WALLETCONNECT_PROJECT_ID?: string;",
    "    NEXT_PUBLIC_APP_NAME?: string;",
    "  \x7d",
    "\x7d"]

/-! ## Pages -/

def appLayout (o : FrontendScaffold) : String :=
  let styles := if o.styling = .tailwind then "import '@/styles/globals.css';\n" else ""
  let bodyClass := if o.darkModeSupport then " className=\"dark\"" else ""
  Text.lines [
    styles ++ "import type \x7b Metadata \x7d from 'next';",
    "import \x7b Providers \x7d from './providers';",
    "",
    "export const metadata: Metadata = \x7b",
    "  title: '" ++ o.appName ++ "',",
    "\x7d;",
    "",
    "export default function RootLayout(\x7b children \x7d: \x7b children: React.ReactNode " ++
      "\x7d) \x7b",
    "  return (",
    "    <html lang=\"en\"" ++ bodyClass ++ ">",
    "      <body>",
    "        <Providers>\x7bchildren\x7d</Providers>",
    "      </body>",
    "    </html>",
    "  );",
    "\x7d"]

def pagesApp (o : FrontendScaffold) : String :=
  Text.lines [
    "import type \x7b AppProps \x7d from 'next/app';",
    "import \x7b Providers \x7d from '@/lib/providers';",
    "",
    "// " ++ o.appName,
    "export default function App(\x7b Component, pageProps \x7d: AppProps) \x7b",
    "  return (",
    "    <Providers>",
    "      <Component \x7b...pageProps\x7d />",
    "    </Providers>",
    "  );",
    "\x7d"]

def homePage (o : FrontendScaffold) : String :=
  Text.lines [
    "import \x7b WalletButton \x7d from '@/components/wallet-button';",
    "",
    "export default function Home() \x7b",
    "  return (",
    "    <main className=\"flex min-h-screen flex-col items-center justify-center gap-6\">",
    "      <h1 className=\"text-4xl font-bold\">" ++ o.appName ++ "</h1>",
    "      <WalletButton />",
    "    </main>",
    "  );",
    "\x7d"]

def providers (rainbowKit : Bool) : String :=
  let imports :=
    if rainbowKit then
      "import \x7b RainbowKitProvider \x7d from '@rainbow-me/rainbowkit';\n" ++
        "import '@rainbow-me/rainbowkit/styles.css';\n"
    else ""
  let inner :=
    if rainbowKit then "<RainbowKitProvider>\x7bchildren\x7d</RainbowKitProvider>"
    else "\x7bchildren\x7d"
  Text.lines [
    "'use client';",
    "",
    "import \x7b QueryClient, QueryClientProvider \x7d from '@tanstack/react-query';",
    "import \x7b WagmiProvider \x7d from 'wagmi';",
    imports ++ "import \x7b wagmiConfig \x7d from '@/lib/wagmi';",
    "",
    "const queryClient = new QueryClient();",
    "",
    "export function Providers(\x7b children \x7d: \x7b children: React.ReactNode \x7d) \x7b",
    "  return (",
    "    <WagmiProvider config=\x7bwagmiConfig\x7d>",
    "      <QueryClientProvider client=\x7bqueryClient\x7d>",
    "        " ++ inner,
    "      </QueryClientProvider>",
    "    </WagmiProvider>",
    "  );",
    "\x7d"]

/-! ## Wallets and contracts -/

def kitConfig (o : FrontendScaffold) (withAuth : Bool) : String :=
  let authImport :=
    if withAuth then "import \x7b walletAuthConfig \x7d from './auth/wallet-auth';\n" else ""
  let appName :=
    if withAuth then "walletAuthConfig.appName"
    else "process.env.NEXT_PUBLIC_APP_NAME ?? '" ++ o.appName ++ "'"
  Text.lines [
    "import \x7b getDefaultConfig \x7d from '@rainbow-me/rainbowkit';",
    authImport ++ "import \x7b appChain \x7d from './chains';",
    "",
    "export const wagmiConfig = getDefaultConfig(\x7b",
    "  appName: " ++ appName ++ ",",
    "  projectId: process.env.NEXT_PUBLIC_WALLETCONNECT_PROJECT_ID ?? '',",
    "  chains: [appChain],",
    "  ssr: " ++ flag o.ssrEnabled ++ ",",
    "\x7d);"]

def plainConfig (o : FrontendScaffold) : String :=
  Text.lines [
    "import \x7b createConfig, http \x7d from 'wagmi';",
    "import \x7b injected \x7d from 'wagmi/connectors';",
    "import \x7b appChain \x7d from './chains';",
    "",
    "export const wagmiConfig = createConfig(\x7b",
    "  chains: [appChain],",
    "  connectors: [injected()],",
    "  transports: \x7b [appChain.id]: http() \x7d,",
    "  ssr: " ++ flag o.ssrEnabled ++ ",",
    "\x7d);"]

def wagmiConfig (o : FrontendScaffold) (withAuth : Bool) : String :=
  if o.rainbowKit then kitConfig o withAuth else plainConfig o

def explorerLine (url : String) : String :=
  "\n  blockExplorers: \x7b default: \x7b name: 'Explorer', url: '" ++ url ++ "' \x7d \x7d,"

def chainConfig (n : Network) : String :=
  let explorer := match n.explorerUrl with
    | none => ""
    | some url => if url = "" then "" else explorerLine url
  Text.lines [
    "import \x7b defineChain \x7d from 'viem';",
    "",
    "export const appChain = defineChain(\x7b",
    "  id: " ++ toString n.chainId ++ ",",
    "  name: '" ++ n.name ++ "',",
    "  nativeCurrency: \x7b name: 'Ether', symbol: 'ETH', decimals: 18 \x7d,",
    "  rpcUrls: \x7b default: \x7b http: ['" ++ n.rpcUrl.getD "" ++ "'] \x7d \x7d," ++ explorer,
    "  testnet: " ++ flag n.isTestnet ++ ",",
    "\x7d);"]

def utils : String :=
  Text.lines [
    "export function cn(...classes: Array<string | false | null | undefined>): string \x7b",
    "  return classes.filter(Boolean).join(' ');",
    "\x7d"]

def walletButton (rainbowKit : Bool) : String :=
  if rainbowKit then Text.lines [
    "'use client';",
    "",
    "import \x7b ConnectButton \x7d from '@rainbow-me/rainbowkit';",
    "",
    "export function WalletButton() \x7b",
    "  return <ConnectButton />;",
    "\x7d"]
  else Text.lines [
    "'use client';",
    "",
    "import \x7b useAccount, useConnect, useDisconnect \x7d from 'wagmi';",
    "",
    "export function WalletButton() \x7b",
    "  const \x7b address, isConnected \x7d = useAccount();",
    "  const \x7b connect, connectors \x7d = useConnect();",
    "  const \x7b disconnect \x7d = useDisconnect();",
    "",
    "  if (isConnected) \x7b",
    "    return <button onClick=\x7b() => disconnect()\x7d>\x7baddress?.slice(0, " ++
      "6)\x7d...\x7baddress?.slice(-4)\x7d</button>;",
    "  \x7d",
    "  return <button onClick=\x7b() => connect(\x7b connector: connectors[0] " ++
      "\x7d)\x7d>Connect Wallet</button>;",
    "\x7d"]

def addressEntry (key : String) : String :=
  "  " ++ Text.lower (Text.dropStart "NEXT_PUBLIC_" key) ++ ": process.env." ++ key ++
    " as Address | undefined,"

def contractHooks (addresses : List (String × String)) : String :=
  let entries := Text.joinTexts "\n" (addresses.map fun a => addressEntry a.1)
  Text.lines [
    "import type \x7b Address \x7d from 'viem';",
    "",
    "export const contractAddresses = \x7b",
    entries,
    "\x7d as const;",
    "",
    "export function useContractAddress(name: keyof typeof contractAddresses): Address | " ++
      "undefined \x7b",
    "  return contractAddresses[name];",
    "\x7d"]

/-! ## Documentation -/

def docs (o : FrontendScaffold) (root : String) : String :=
  let shown := included [
    ("WalletConnect integration", o.walletConnect),
    ("RainbowKit wallet UI", o.rainbowKit),
    ("Sign-In With Ethereum (SIWE)", o.siweAuth),
    ("Smart contract integration", o.includeContracts),
    ("Dark mode support", o.darkModeSupport),
    ("Server-side rendering", o.ssrEnabled)]
  let features := Text.joinTexts "\n" (shown.map fun f => "- " ++ f)
  Text.lines [
    o.appName ++ " is a Next.js Web3 application living in `" ++ root ++ "`.",
    "",
    "## Tech Stack",
    "",
    "- **Framework**: " ++ name o.framework,
    "- **Styling**: " ++ name o.styling,
    "- **Web3**: " ++ name o.web3Provider,
    "- **State Management**: " ++ name o.stateManagement,
    "",
    "## Getting Started",
    "",
    "1. Install dependencies with `pnpm install`",
    "2. Copy `.env.example` to `.env.local` and fill in the values",
    "3. Start the development server with `pnpm dev`",
    "",
    "## Features",
    "",
    features]

end ProjectComposer.BuiltIn.Frontend
