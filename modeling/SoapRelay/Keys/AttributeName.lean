/-!
# Names of subject attributes

An attribute of a certificate's subject is known by its object identifier, by a short name and by a
long name. Subjects are rendered with the short ones.
-/

namespace SoapRelay

structure AttributeName where
  objectId : String
  short : String
  long : String
  deriving DecidableEq, Repr

namespace AttributeName

/-- Names under one object identifier; a missing long name is the short one. -/
def under (root : String) (names : List (Nat × String × String)) : List AttributeName :=
  names.map fun (n, short, long) => ⟨root ++ toString n, short, if long = "" then short else long⟩

def directory : List AttributeName :=
  under "2.5.4."
    [(3, "CN", "commonName"), (4, "SN", "surname"), (5, "serialNumber", ""),
      (6, "C", "countryName"), (7, "L", "localityName"), (8, "ST", "stateOrProvinceName"),
      (9, "street", "streetAddress"), (10, "O", "organizationName"),
      (11, "OU", "organizationalUnitName"), (12, "title", ""), (13, "description", ""),
      (14, "searchGuide", ""), (15, "businessCategory", ""), (16, "postalAddress", ""),
      (17, "postalCode", ""), (18, "postOfficeBox", ""), (19, "physicalDeliveryOfficeName", ""),
      (20, "telephoneNumber", ""), (21, "telexNumber", ""), (22, "teletexTerminalIdentifier", ""),
      (23, "facsimileTelephoneNumber", ""), (24, "x121Address", ""),
      (25, "internationaliSDNNumber", ""), (26, "registeredAddress", ""),
      (27, "destinationIndicator", ""), (28, "preferredDeliveryMethod", ""),
      (29, "presentationAddress", ""), (30, "supportedApplicationContext", ""), (31, "member", ""),
      (32, "owner", ""), (33, "roleOccupant", ""), (34, "seeAlso", ""), (35, "userPassword", ""),
      (36, "userCertificate", ""), (37, "cACertificate", ""), (38, "authorityRevocationList", ""),
      (39, "certificateRevocationList", ""), (40, "crossCertificatePair", ""), (41, "name", ""),
      (42, "GN", "givenName"), (43, "initials", ""), (44, "generationQualifier", ""),
      (45, "x500UniqueIdentifier", ""), (46, "dnQualifier", ""), (47, "enhancedSearchGuide", ""),
      (48, "protocolInformation", ""), (49, "distinguishedName", ""), (50, "uniqueMember", ""),
      (51, "houseIdentifier", ""), (52, "supportedAlgorithms", ""),
      (53, "deltaRevocationList", ""), (54, "dmdName", ""), (65, "pseudonym", ""),
      (72, "role", ""), (97, "organizationIdentifier", ""), (98, "c3", "countryCode3c"),
      (99, "n3", "countryCode3n"), (100, "dnsName", "")]

def person : List AttributeName :=
  under "0.9.2342.19200300.100.1."
    [(1, "UID", "userId"), (2, "textEncodedORAddress", ""), (3, "mail", "rfc822Mailbox"),
      (4, "info", ""), (5, "favouriteDrink", ""), (6, "roomNumber", ""), (7, "photo", ""),
      (8, "userClass", ""), (9, "host", ""), (10, "manager", ""), (11, "documentIdentifier", ""),
      (12, "documentTitle", ""), (13, "documentVersion", ""), (14, "documentAuthor", ""),
      (15, "documentLocation", ""), (20, "homeTelephoneNumber", ""), (21, "secretary", ""),
      (22, "otherMailbox", ""), (23, "lastModifiedTime", ""), (24, "lastModifiedBy", ""),
      (25, "DC", "domainComponent"), (26, "aRecord", ""), (27, "pilotAttributeType27", ""),
      (28, "mXRecord", ""), (29, "nSRecord", ""), (30, "sOARecord", ""), (31, "cNAMERecord", ""),
      (37, "associatedDomain", ""), (38, "associatedName", ""), (39, "homePostalAddress", ""),
      (40, "personalTitle", ""), (41, "mobileTelephoneNumber", ""),
      (42, "pagerTelephoneNumber", ""), (43, "friendlyCountryName", ""),
      (44, "uid", "uniqueIdentifier"), (45, "organizationalStatus", ""), (46, "janetMailbox", ""),
      (47, "mailPreferenceOption", ""), (48, "buildingName", ""), (49, "dSAQuality", ""),
      (50, "singleLevelQuality", ""), (51, "subtreeMinimumQuality", ""),
      (52, "subtreeMaximumQuality", ""), (53, "personalSignature", ""), (54, "dITRedirect", ""),
      (55, "audio", ""), (56, "documentPublisher", "")]

def contact : List AttributeName :=
  under "1.2.840.113549.1.9."
    [(1, "emailAddress", ""), (2, "unstructuredName", ""), (3, "contentType", ""),
      (4, "messageDigest", ""), (5, "signingTime", ""), (6, "countersignature", ""),
      (7, "challengePassword", ""), (8, "unstructuredAddress", ""),
      (9, "extendedCertificateAttributes", ""), (20, "friendlyName", ""), (21, "localKeyID", "")]

def jurisdiction : List AttributeName :=
  under "1.3.6.1.4.1.311.60.2.1."
    [(1, "jurisdictionL", "jurisdictionLocalityName"),
      (2, "jurisdictionST", "jurisdictionStateOrProvinceName"),
      (3, "jurisdictionC", "jurisdictionCountryName")]

def known : List AttributeName :=
  directory ++ person ++ contact ++ jurisdiction

/-- The short name of an object identifier; one that is not known has the name `UNDEF`. -/
def shortOf (objectId : String) : String :=
  match known.find? (·.objectId = objectId) with
  | some n => n.short
  | none => "UNDEF"

/-- The short name of an attribute that is given by any of its names. -/
def shortOfAny? (name : String) : Option String :=
  let found := (known.find? (·.short = name)).or
    ((known.find? (·.long = name)).or (known.find? (·.objectId = name)))
  match found with
  | some n => some n.short
  | none => if name.toList.all (fun c => c.isDigit || c = '.') then some "UNDEF" else none

end AttributeName

end SoapRelay
